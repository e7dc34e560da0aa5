import DroneServer.Lib.Coder
import DroneServer.Media.Frames
import DroneServer.Rtmp.Isolation

/-! # `flv_demuxer` and the decoder behind it

The demuxer keeps one `AVPacket` and fills it from each video packet it lets
through, opens the decoder after the first one, and hands the packet on whenever
there is something in it. A sequence header, or a packet with an empty payload,
leaves in it what was there, so that the packet before is decoded once more.

What libav does with a packet is a `Coder`; the frames go to the drone's pipe.
-/

namespace DroneServer

/-- `AVPacket`, with the values of `av_packet_alloc`. Nothing sets its flags: `flv_read_packet`
    compares them with `AV_PKT_FLAG_KEY` instead. -/
structure AvPacket where
  data : Bytes := []
  pts : Int := -2 ^ 63
  dts : Int := -2 ^ 63
  pos : Int := -1
  flags : Nat := 0
  deriving DecidableEq, Repr

/-- The part of libav a demuxer uses, over the state of an open context. -/
structure Libav (σ : Type) where
  decoder : Coder σ AvPacket AvFrame
  /-- `avcodec_open2`, given the codec and the extradata set by then. -/
  open2 : Codec → Bytes → Option σ

/-- `flv_demuxer` with its times and its codec context, which is absent until it is open. -/
structure FlvDecoder (σ : Type) extends FlvDemuxer where
  pts : Int := -2 ^ 63
  dts : Int := -2 ^ 63
  cc : Option σ := none

/-- What one call of `decode` did: the packet `media_decoder::decode` was called with, if it was,
    the code it returned, and the calls of writers. -/
structure Decoded where
  offered : Option AvPacket := none
  reply : Option Reply := none
  written : List Written := []
  deriving DecidableEq

namespace FlvDecoder

variable {σ : Type}

def packet (d : FlvDecoder σ) : AvPacket := { data := d.pkt, pts := d.pts, dts := d.dts }

/-- `flv_read_packet`, with the times it copies beside the payload. -/
def readPacket (d : FlvDecoder σ) (pkt : MediaPacket) : Except Fault (FlvDecoder σ) := do
  let flv ← d.toFlvDemuxer.readPacket pkt
  if pkt.seqHeader ∨ pkt.data.length = 5 then pure { d with toFlvDemuxer := flv }
  else pure { d with toFlvDemuxer := flv, pts := pkt.pts, dts := pkt.dts }

/-- `media_decoder::decode` on the demuxer's packet. A context that is not open accepts nothing. -/
def decodePacket (av : Libav σ) (d : FlvDecoder σ) : FlvDecoder σ × Reply × List AvFrame :=
  match d.cc with
  | none => (d, .failed, [])
  | some s =>
      let (reply, s, frames) := av.decoder.code s (some d.packet)
      ({ d with cc := some s }, reply, frames)

/-- `on_decoded` for one frame after the other. -/
def onDecoded (cid : ClientId) (mm : FrameManager) : List AvFrame → FrameManager × List Written
  | [] => (mm, [])
  | f :: frames =>
      let (mm, first) := mm.perform (.onDecoded cid f)
      let (mm, rest) := onDecoded cid mm frames
      (mm, first ++ rest)

/-- `flv_demuxer::decode`, on a pointer that may be null, as `FlvDemuxer.decode`. -/
def decode (av : Libav σ) (this : Option (FlvDecoder σ)) (mm : FrameManager) (pkt : MediaPacket) :
    Except Fault (Option (FlvDecoder σ) × FrameManager × Decoded) :=
  if pkt.type ≠ .video then .ok (this, mm, {})
  else match this with
    | none => .error .nullDereference
    | some d => do
        let pipe := mm.pipe d.cid
        let mm := mm.put d.cid pipe
        if pipe.count = 0 ∧ !pkt.seqHeader ∧ !pkt.keyFrame then pure (some d, mm, {})
        else
          let d ← d.readPacket pkt
          -- `open` does nothing to a context that is open, and its result is not looked at
          let d := { d with cc := d.cc <|> av.open2 d.codec d.extradata }
          if d.pkt = [] then pure (some d, mm, {})
          else
            let (d', reply, frames) := d.decodePacket av
            let (mm, written) := onDecoded d.cid mm frames
            pure (some d', mm, { offered := some d.packet, reply := some reply, written })

/-- `flv_demuxer_wrap::write`. -/
def wrapWrite (av : Libav σ) (demux : Option (FlvDecoder σ)) (mm : FrameManager)
    (pkt : MediaPacket) : Except Fault (Option (FlvDecoder σ) × FrameManager × Decoded) :=
  let demux := match demux with
    | some d => some d
    | none =>
        if pkt.codec = .h264 ∨ pkt.codec = .h265 then some { codec := pkt.codec, cid := pkt.cid }
        else none
  decode av demux mm pkt

end FlvDecoder

namespace FrameManager

/-- The pipes without what is written to them. -/
def forget (mm : FrameManager) : MediaManager where
  recs cid := (mm.recs cid).map (·.toMediaCopypipe)

theorem forget_put (mm : FrameManager) (cid : ClientId) (p : FramePipe) :
    (mm.put cid p).forget =
      { recs := Function.update mm.forget.recs cid (some p.toMediaCopypipe) } := by
  unfold forget put
  congr 1
  funext cid'
  by_cases same : cid' = cid
  · simp [same]
  · simp [same]

theorem forget_pipe (mm : FrameManager) (cid : ClientId) :
    mm.forget.pipe cid = ((mm.pipe cid).toMediaCopypipe, (mm.put cid (mm.pipe cid)).forget) := by
  rw [MediaManager.pipe, forget_put]
  cases found : mm.recs cid with
  | none =>
      have absent : mm.forget.recs cid = none := by simp [forget, found]
      simp only [absent, pipe, found, Option.getD_none]
  | some p =>
      have there : mm.forget.recs cid = some p.toMediaCopypipe := by simp [forget, found]
      have same := Function.update_eq_self cid mm.forget.recs
      rw [there] at same
      simp only [there, pipe, found, Option.getD_some, same]

theorem forget_onDecoded {mm : FrameManager} {cid : ClientId} (f : AvFrame)
    (there : (mm.recs cid).isSome) :
    (mm.perform (.onDecoded cid f)).1.forget = mm.forget ∧
      ((mm.perform (.onDecoded cid f)).1.recs cid).isSome := by
  obtain ⟨p, found⟩ := Option.isSome_iff_exists.mp there
  have pipe : mm.pipe cid = p := by rw [pipe, found, Option.getD_some]
  have recs : mm.forget.recs cid = some p.toMediaCopypipe := by simp [forget, found]
  have same : ∀ q : FramePipe, q.toMediaCopypipe = p.toMediaCopypipe →
      (mm.put cid q).forget = mm.forget ∧ ((mm.put cid q).recs cid).isSome := by
    intro q own
    rw [forget_put, own, ← recs, Function.update_eq_self]
    simp [put]
  simp only [perform, pipe]
  split
  · exact same _ rfl
  · exact same _ rfl

end FrameManager

namespace FlvDecoder

variable {σ : Type}

theorem onDecoded_forget {mm : FrameManager} {cid : ClientId} (frames : List AvFrame)
    (there : (mm.recs cid).isSome) : (onDecoded cid mm frames).1.forget = mm.forget := by
  induction frames generalizing mm with
  | nil => rfl
  | cons f frames ih =>
      obtain ⟨same, there⟩ := FrameManager.forget_onDecoded f there
      exact (ih there).trans same

theorem decodePacket_flv (av : Libav σ) (d : FlvDecoder σ) :
    (d.decodePacket av).1.toFlvDemuxer = d.toFlvDemuxer := by
  unfold decodePacket
  split <;> rfl

/-- Without the decoder this is the demuxer as the stream sees it: it faults when that does, and
    leaves the same demuxer and the same writers. -/
theorem decode_refines (av : Libav σ) (this : Option (FlvDecoder σ)) (mm : FrameManager)
    (pkt : MediaPacket) :
    (decode av this mm pkt).map (fun r => (r.1.map (·.toFlvDemuxer), r.2.1.forget)) =
      FlvDemuxer.decode (this.map (·.toFlvDemuxer)) mm.forget pkt := by
  unfold decode FlvDemuxer.decode
  split
  · rfl
  cases this with
  | none => rfl
  | some d =>
      have own := mm.forget_pipe d.cid
      simp only [Option.map_some, own]
      split
      · rfl
      · have there : ((mm.put d.cid (mm.pipe d.cid)).recs d.cid).isSome := by
          simp [FrameManager.put]
        unfold readPacket
        cases read : d.toFlvDemuxer.readPacket pkt with
        | error f => rfl
        | ok flv =>
            have kept : flv.cid = d.cid := FlvDemuxer.readPacket_cid read
            -- the two ways of filling the packet leave the same demuxer
            obtain ⟨filled, fills, rfl⟩ : ∃ filled : FlvDecoder σ,
                (if pkt.seqHeader ∨ pkt.data.length = 5 then
                  (pure { d with toFlvDemuxer := flv } : Except Fault (FlvDecoder σ))
                else pure { d with toFlvDemuxer := flv, pts := pkt.pts, dts := pkt.dts }) =
                  .ok filled ∧ filled.toFlvDemuxer = flv := by
              split <;> exact ⟨_, rfl, rfl⟩
            simp only [bind, Except.bind, fills]
            split
            · rfl
            · simp only [Except.map, pure, Except.pure, Option.map_some, decodePacket_flv]
              rw [kept, onDecoded_forget _ there]

end FlvDecoder

/-- A demuxer in use, beside whoever adds and removes writers. -/
structure Playback (σ : Type) where
  demux : Option (FlvDecoder σ) := none
  pipes : FrameManager := {}
  crashed : Option Fault := none
  /-- What every call of `media_decoder::decode` was given, and what it returned. -/
  offered : List AvPacket := []
  replies : List Reply := []

namespace Playback

variable {σ : Type}

/-- `flv_demuxer_wrap::write`, or a call on the pipes. -/
inductive Event where
  | write (pkt : MediaPacket)
  | call (c : MediaCall)

def perform (av : Libav σ) (p : Playback σ) : Event → Playback σ
  | .call c => { p with pipes := (p.pipes.perform c).1 }
  | .write pkt =>
      match FlvDecoder.wrapWrite av p.demux p.pipes pkt with
      | .error f => { p with crashed := some f }
      | .ok (demux, pipes, did) =>
          { p with
            demux
            pipes
            offered := p.offered ++ did.offered.toList
            replies := p.replies ++ did.reply.toList }

/-- Nothing happens any more once the process has stopped. -/
def step (av : Libav σ) (p : Playback σ) (e : Event) : Playback σ :=
  if p.crashed = none then p.perform av e else p

end Playback

/-- A demuxer from the time its stream is made. -/
def playback {σ : Type} (av : Libav σ) : Machine (Playback σ) Playback.Event where
  start := {}
  step := Playback.step av

namespace MediaPacket

/-- The packet fills the demuxer's `AVPacket`: it is no sequence header and has a payload. -/
def Carries (pkt : MediaPacket) : Prop := ¬ pkt.seqHeader ∧ pkt.data.length ≠ 5

instance (pkt : MediaPacket) : Decidable pkt.Carries := inferInstanceAs (Decidable (_ ∧ _))

/-- What it fills it with. -/
def avPacket (pkt : MediaPacket) : AvPacket :=
  { data := pkt.data.drop 5, pts := pkt.pts, dts := pkt.dts }

end MediaPacket

namespace FlvDecoder

variable {σ : Type} {av : Libav σ} {pipes pipes' : FrameManager} {pkt : MediaPacket}

/-- The demuxer `flv_demuxer_wrap::write` calls, if there is one. -/
def opened (demux : Option (FlvDecoder σ)) (pkt : MediaPacket) : Option (FlvDecoder σ) :=
  match demux with
  | some d => some d
  | none =>
      if pkt.codec = .h264 ∨ pkt.codec = .h265 then some { codec := pkt.codec, cid := pkt.cid }
      else none

/-- A video packet that the demuxer lets through: somebody listens, or a decoder could start with
    it. -/
def Lets (demux : Option (FlvDecoder σ)) (pipes : FrameManager) (pkt : MediaPacket) : Prop :=
  pkt.type = .video ∧ ∀ d ∈ opened demux pkt,
    (pipes.pipe d.cid).count ≠ 0 ∨ pkt.seqHeader ∨ pkt.keyFrame

instance (demux : Option (FlvDecoder σ)) (pipes : FrameManager) (pkt : MediaPacket) :
    Decidable (Lets demux pipes pkt) :=
  inferInstanceAs (Decidable (_ ∧ _))

/-- What is in the demuxer's `AVPacket`, if anything. -/
def held (demux : Option (FlvDecoder σ)) : Option AvPacket :=
  demux.bind fun d => if d.pkt = [] then none else some d.packet

theorem held_opened (demux : Option (FlvDecoder σ)) (pkt : MediaPacket) :
    held (opened demux pkt) = held demux := by
  cases demux with
  | some d => rfl
  | none =>
      unfold opened
      simp only
      split <;> rfl

theorem held_decodePacket (av : Libav σ) (d : FlvDecoder σ) :
    held (some (d.decodePacket av).1) = held (some d) := by
  unfold decodePacket
  split <;> rfl

theorem readPacket_held {d filled : FlvDecoder σ} (read : d.readPacket pkt = .ok filled) :
    held (some filled) = (if pkt.Carries then some pkt.avPacket else held (some d)) ∧
      filled.cc = d.cc := by
  obtain ⟨flv, fills, rest⟩ := bind_ok.mp read
  unfold FlvDemuxer.readPacket at fills
  split at fills
  · cases fills
  next long =>
    by_cases header : pkt.seqHeader
    · rw [if_pos header] at fills
      cases fills
      rw [if_pos (.inl header)] at rest
      cases rest
      exact ⟨by simp [MediaPacket.Carries, header, held, packet], rfl⟩
    · rw [if_neg header] at fills
      by_cases bare : pkt.data.length = 5
      · rw [if_pos bare] at fills
        cases fills
        rw [if_pos (.inr bare)] at rest
        cases rest
        exact ⟨by simp [MediaPacket.Carries, bare, held, packet], rfl⟩
      · rw [if_neg bare] at fills
        cases fills
        rw [if_neg (not_or.mpr ⟨header, bare⟩)] at rest
        cases rest
        have some : pkt.data.drop 5 ≠ [] := by
          intro none
          have := List.drop_eq_nil_iff.mp none
          omega
        exact ⟨by simp [MediaPacket.Carries, header, bare, held, packet, MediaPacket.avPacket, some],
          rfl⟩

/-- A call of `flv_demuxer_wrap::write` that returns: either nothing is let through and nothing
    decoded, or the packet is, and what is then in the demuxer's `AVPacket` is decoded. -/
theorem wrapWrite_ok {demux demux' : Option (FlvDecoder σ)} {did : Decoded}
    (done : wrapWrite av demux pipes pkt = .ok (demux', pipes', did)) :
    (¬ Lets demux pipes pkt ∧ demux' = opened demux pkt ∧ did.offered = none ∧ did.reply = none) ∨
    (Lets demux pipes pkt ∧ ∃ d filled opener, opened demux pkt = some d ∧
      d.readPacket pkt = .ok filled ∧
      opener = { filled with cc := filled.cc <|> av.open2 filled.codec filled.extradata } ∧
      did.offered = held (some filled) ∧
      ((held (some filled) = none ∧ did.reply = none ∧ demux' = some opener) ∨
        (did.reply = some (opener.decodePacket av).2.1 ∧
          demux' = some (opener.decodePacket av).1))) := by
  have called : wrapWrite av demux pipes pkt = decode av (opened demux pkt) pipes pkt := by
    cases demux <;> rfl
  rw [called] at done
  unfold decode at done
  unfold Lets
  generalize opened demux pkt = this at done ⊢
  split at done
  · next other =>
      cases done
      exact .inl ⟨fun lets => other lets.1, rfl, rfl, rfl⟩
  next video =>
    cases this with
    | none => cases done
    | some d =>
        simp only at done
        split at done
        · next skips =>
            cases done
            refine .inl ⟨fun lets => ?_, rfl, rfl, rfl⟩
            rcases lets.2 d rfl with some | header | key
            · exact some skips.1
            · simp [header] at skips
            · simp [key] at skips
        · next passes =>
            obtain ⟨filled, read, done⟩ := bind_ok.mp done
            have lets : (pipes.pipe d.cid).count ≠ 0 ∨ pkt.seqHeader ∨ pkt.keyFrame := by
              by_contra none
              push Not at none
              exact passes ⟨none.1, by simpa using none.2.1, by simpa using none.2.2⟩
            refine .inr ⟨⟨not_not.mp video, fun d' here => ?_⟩, d, filled, _, rfl, read, rfl, ?_⟩
            · cases here
              exact lets
            · split at done
              · next empty =>
                  have empty : filled.pkt = [] := empty
                  cases done
                  have none : held (some filled) = none := by simp [held, empty]
                  exact ⟨none.symm, .inl ⟨none, rfl, rfl⟩⟩
              · next some =>
                  have some : filled.pkt ≠ [] := some
                  cases done
                  exact ⟨by simp [held, some, packet], .inr ⟨rfl, rfl⟩⟩

end FlvDecoder

namespace Playback

open FlvDecoder

variable {σ : Type} {av : Libav σ}

/-- The packets let through, noted at each call that returns. -/
def notePassed (av : Libav σ) (passed : List MediaPacket) (p : Playback σ) :
    Event → List MediaPacket
  | .write pkt =>
      if p.crashed = none ∧ (p.step av (.write pkt)).crashed = none ∧ Lets p.demux p.pipes pkt then
        passed ++ [pkt]
      else passed
  | .call _ => passed

/-- The packets the demuxer let through in a run, in order. -/
def passed (av : Libav σ) (events : List Event) : List MediaPacket :=
  (((playback av).noting [] (notePassed av)).run events).2

/-- The demuxer's `AVPacket` after one packet more. -/
def fill (held : Option AvPacket) (pkt : MediaPacket) : Option AvPacket :=
  if pkt.Carries then some pkt.avPacket else held

/-- What is decoded for the packets let through, with what the demuxer holds before them. -/
def decodedFor (held : Option AvPacket) : List MediaPacket → List AvPacket
  | [] => []
  | pkt :: passed => (fill held pkt).toList ++ decodedFor (fill held pkt) passed

theorem decodedFor_snoc (held : Option AvPacket) (passed : List MediaPacket) (pkt : MediaPacket) :
    decodedFor held (passed ++ [pkt]) =
      decodedFor held passed ++ ((passed ++ [pkt]).foldl fill held).toList := by
  induction passed generalizing held with
  | nil => simp [decodedFor]
  | cons first passed ih =>
      rw [List.cons_append, decodedFor, decodedFor, ih, List.append_assoc]
      rfl

theorem step_write {p : Playback σ} {pkt : MediaPacket} (running : p.crashed = none)
    (returns : (p.step av (.write pkt)).crashed = none) :
    ∃ demux pipes did, wrapWrite av p.demux p.pipes pkt = .ok (demux, pipes, did) ∧
      p.step av (.write pkt) =
        { p with
          demux, pipes, offered := p.offered ++ did.offered.toList,
          replies := p.replies ++ did.reply.toList } := by
  have taken : p.step av (.write pkt) = p.perform av (.write pkt) := if_pos running
  rw [taken] at returns ⊢
  simp only [perform] at returns ⊢
  split at returns
  · cases returns
  · next demux pipes did done => exact ⟨demux, pipes, did, done, rfl⟩

/-- What the demuxer holds and what was decoded follow from the packets let through. -/
structure Follows (p : Playback σ) (passed : List MediaPacket) : Prop where
  holds : p.crashed = none → held p.demux = passed.foldl fill none
  offered : p.offered = decodedFor none passed

theorem Follows.step {p : Playback σ} {passed : List MediaPacket} (follows : p.Follows passed)
    (e : Event) : (p.step av e).Follows (notePassed av passed p e) := by
  by_cases running : p.crashed = none
  · cases e with
    | call c =>
        have taken : p.step av (.call c) = p.perform av (.call c) := if_pos running
        rw [taken]
        exact ⟨follows.holds, follows.offered⟩
    | write pkt =>
        by_cases returns : (p.step av (.write pkt)).crashed = none
        · obtain ⟨demux, pipes, did, done, taken⟩ := step_write running returns
          simp only [notePassed, running, returns, true_and]
          rw [taken]
          obtain ⟨stays, rfl, none, _⟩ |
            ⟨lets, d, filled, opener, called, read, rfl, offered, left⟩ := wrapWrite_ok done
          · rw [if_neg stays]
            refine ⟨fun _ => (held_opened _ _).trans (follows.holds running), ?_⟩
            simp [none, follows.offered]
          · rw [if_pos lets]
            have before : held (some d) = passed.foldl fill Option.none := by
              rw [← called, held_opened]
              exact follows.holds running
            have after : held (some filled) = (passed ++ [pkt]).foldl fill Option.none := by
              rw [List.foldl_append, ← before]
              exact (readPacket_held read).1
            refine ⟨fun _ => ?_, ?_⟩
            · rcases left with ⟨_, _, rfl⟩ | ⟨_, rfl⟩
              · exact after
              · exact (held_decodePacket av _).trans after
            · simp only
              rw [decodedFor_snoc, follows.offered, offered, after]
        · have kept : notePassed av passed p (.write pkt) = passed := by
            simp [notePassed, returns]
          rw [kept]
          refine ⟨fun running' => absurd running' returns, ?_⟩
          have taken : p.step av (.write pkt) = p.perform av (.write pkt) := if_pos running
          rw [taken] at returns ⊢
          simp only [perform] at returns ⊢
          split
          · exact follows.offered
          · next done =>
              rw [done] at returns
              exact absurd running returns
  · have stopped : p.step av e = p := if_neg running
    have kept : notePassed av passed p e = passed := by
      cases e with
      | call => rfl
      | write pkt => simp [notePassed, running]
    rw [stopped, kept]
    exact follows

theorem Follows.run (av : Libav σ) (events : List Event) :
    ((playback av).run events).Follows (passed av events) := by
  have noted := (Machine.Reachable.run ((playback av).noting [] (notePassed av)) events).invariant
    (P := fun s => Follows s.1 s.2) ⟨fun _ => rfl, rfl⟩ fun _ e follows => follows.step e
  rwa [Machine.noting_run] at noted

/-- Every packet after one that fills the demuxer's packet fills it, too. -/
def Unrepeated (passed : List MediaPacket) : Prop :=
  passed.Pairwise fun before after => before.Carries → after.Carries

instance (passed : List MediaPacket) : Decidable (Unrepeated passed) :=
  inferInstanceAs (Decidable (List.Pairwise _ passed))

/-- The payloads let through. -/
def payloads (passed : List MediaPacket) : List AvPacket :=
  (passed.filter (·.Carries)).map (·.avPacket)

theorem decodedFor_some (avPacket : AvPacket) (passed : List MediaPacket) :
    (decodedFor (some avPacket) passed).length = passed.length ∧
      ((∀ pkt ∈ passed, pkt.Carries) → decodedFor (some avPacket) passed = payloads passed) := by
  induction passed generalizing avPacket with
  | nil => exact ⟨rfl, fun _ => rfl⟩
  | cons pkt passed ih =>
      unfold decodedFor payloads fill
      by_cases carries : pkt.Carries
      · obtain ⟨length, same⟩ := ih pkt.avPacket
        refine ⟨by simp [carries, length], fun all => ?_⟩
        have rest := same fun pkt' inside => all pkt' (List.mem_cons_of_mem pkt inside)
        simp [carries, rest, payloads]
      · obtain ⟨length, _⟩ := ih avPacket
        refine ⟨by simp [carries, length], fun all => ?_⟩
        exact absurd (all pkt List.mem_cons_self) carries

theorem decodedFor_payloads (passed : List MediaPacket) :
    decodedFor none passed = payloads passed ↔ Unrepeated passed := by
  induction passed with
  | nil => exact ⟨fun _ => List.Pairwise.nil, fun _ => rfl⟩
  | cons pkt passed ih =>
      unfold Unrepeated at ih ⊢
      rw [List.pairwise_cons]
      by_cases carries : pkt.Carries
      · obtain ⟨length, same⟩ := decodedFor_some pkt.avPacket passed
        have opens : decodedFor none (pkt :: passed) =
            pkt.avPacket :: decodedFor (some pkt.avPacket) passed := by
          simp [decodedFor, fill, carries]
        have first : payloads (pkt :: passed) = pkt.avPacket :: payloads passed := by
          simp [payloads, carries]
        rw [opens, first, List.cons.injEq]
        constructor
        · rintro ⟨_, rest⟩
          -- as many payloads as packets: all of them carry one
          have many : (passed.filter (·.Carries)).length = passed.length := by
            have := congrArg List.length rest
            rw [length, payloads, List.length_map] at this
            exact this.symm
          have all : ∀ pkt' ∈ passed, pkt'.Carries := by
            simpa using List.length_filter_eq_length_iff.mp many
          refine ⟨fun pkt' inside _ => all pkt' inside, ?_⟩
          exact List.pairwise_of_forall_mem_list fun _ _ q inside _ => all q inside
        · rintro ⟨all, _⟩
          exact ⟨rfl, same fun pkt' inside => all pkt' inside carries⟩
      · have opens : decodedFor none (pkt :: passed) = decodedFor none passed := by
          simp [decodedFor, fill, carries]
        have first : payloads (pkt :: passed) = payloads passed := by simp [payloads, carries]
        rw [opens, first, ih]
        exact ⟨fun rest => ⟨fun _ _ here => absurd here carries, rest⟩, And.right⟩

end Playback

/-- What a demuxer has the decoder decode over a whole run, whoever is added to the pipes and taken
    from them meanwhile: for each packet it lets through, the last payload let through by then. So
    each payload is decoded exactly once, in order, if and only if no sequence header and no empty
    packet is let through after a payload. -/
theorem payloads_decoded_once_iff {σ : Type} (av : Libav σ) (events : List Playback.Event) :
    ((playback av).run events).offered =
        Playback.decodedFor none (Playback.passed av events) ∧
      (((playback av).run events).offered = Playback.payloads (Playback.passed av events) ↔
        Playback.Unrepeated (Playback.passed av events)) := by
  have follows := Playback.Follows.run av events
  exact ⟨follows.offered, by rw [follows.offered]; exact Playback.decodedFor_payloads _⟩

namespace Playback

open FlvDecoder

variable {σ : Type} {av : Libav σ}

/-- An open decoder has been read to the end. -/
def Ready (av : Libav σ) (p : Playback σ) : Prop :=
  ∀ d s, p.demux = some d → d.cc = some s → av.decoder.Empty s

theorem Ready.step (proper : av.decoder.Proper)
    (fresh : ∀ codec extradata s, av.open2 codec extradata = some s → av.decoder.Empty s)
    {p : Playback σ} (ready : p.Ready av) (e : Event)
    (unfailed : .failed ∉ (p.step av e).replies) : (p.step av e).Ready av := by
  by_cases running : p.crashed = none
  · cases e with
    | call c =>
        have taken : p.step av (.call c) = p.perform av (.call c) := if_pos running
        rw [taken]
        exact ready
    | write pkt =>
        by_cases returns : (p.step av (.write pkt)).crashed = none
        · obtain ⟨demux, pipes, did, done, taken⟩ := step_write running returns
          rw [taken] at unfailed ⊢
          have before : ∀ d s, opened p.demux pkt = some d → d.cc = some s →
              av.decoder.Empty s := by
            intro d s here is_open
            unfold opened at here
            split at here
            · next there => exact ready d s (there.trans here) is_open
            · split at here
              · cases here
                cases is_open
              · cases here
          obtain ⟨_, rfl, _⟩ | ⟨_, d, filled, opener, called, read, rfl, _, left⟩ :=
            wrapWrite_ok done
          · exact before
          · -- the context was open before, or has just been opened
            have now : ∀ s, (filled.cc <|> av.open2 filled.codec filled.extradata) = some s →
                av.decoder.Empty s := by
              intro s is_open
              cases already : filled.cc with
              | none =>
                  rw [already] at is_open
                  exact fresh _ _ s is_open
              | some s' =>
                  rw [already] at is_open
                  cases is_open
                  exact before d s called ((readPacket_held read).2 ▸ already)
            rcases left with ⟨_, _, rfl⟩ | ⟨reply, rfl⟩
            · intro d' s here is_open
              cases here
              exact now s is_open
            · intro d' s here is_open
              cases here
              simp only [reply, Option.toList_some, List.mem_append, List.mem_singleton,
                not_or] at unfailed
              unfold decodePacket at unfailed is_open
              simp only at unfailed is_open
              cases context : (filled.cc <|> av.open2 filled.codec filled.extradata) with
              | none =>
                  simp only [context] at is_open
                  cases is_open
              | some s' =>
                  simp only [context] at unfailed is_open
                  cases is_open
                  exact proper.code_empty (now _ context) fun failed => unfailed.2 failed.symm
        · have taken : p.step av (.write pkt) = p.perform av (.write pkt) := if_pos running
          rw [taken] at returns ⊢
          simp only [perform] at returns ⊢
          split
          · exact ready
          · next done =>
              rw [done] at returns
              exact absurd running returns
  · have stopped : p.step av e = p := if_neg running
    rw [stopped]
    exact ready

theorem replies_grow (p : Playback σ) (e : Event) : p.replies <+: (p.step av e).replies := by
  unfold step
  split
  · cases e with
    | call => exact List.prefix_refl _
    | write pkt =>
        simp only [perform]
        split
        · exact List.prefix_refl _
        · exact List.prefix_append _ _
  · exact List.prefix_refl _

end Playback

/-- With a decoder that keeps to libav's rules, no packet is lost because the decoder was not read
    to the end: unless a call of `decode` has failed, it never refuses the next packet with the
    request to be read first. -/
theorem decoder_ready {σ : Type} (av : Libav σ) (proper : av.decoder.Proper)
    (fresh : ∀ codec extradata s, av.open2 codec extradata = some s → av.decoder.Empty s)
    (events : List Playback.Event) (unfailed : .failed ∉ ((playback av).run events).replies)
    (d : FlvDecoder σ) (s : σ) (demux : ((playback av).run events).demux = some d)
    (is_open : d.cc = some s) (packet : AvPacket) :
    (av.decoder.send s (some packet)).1 ≠ .again := by
  have ready : .failed ∉ ((playback av).run events).replies →
      ((playback av).run events).Ready av := by
    refine (Machine.Reachable.run (playback av) events).invariant
      (P := fun p => .failed ∉ p.replies → p.Ready av) (fun _ d s none => by cases none) ?_
    intro p e ready unfailed
    refine Playback.Ready.step proper fresh (ready fun failed => ?_) e unfailed
    exact unfailed ((Playback.replies_grow p e).subset failed)
  intro again
  cases sent : av.decoder.send s (some packet) with
  | mk reply s' =>
      rw [sent] at again
      cases again
      exact proper.accepts sent (ready unfailed d s demux is_open)

/-- A decoder that gives one frame for each packet, and takes no packet before it was read. -/
def promptDecoder : Coder (List AvFrame) AvPacket AvFrame where
  send s
    | none => (.accepted, s)
    | some packet =>
        if s = [] then (.accepted, [{ pts := packet.pts, picture := packet.data }]) else (.again, s)
  receive
    | [] => (.stop .again, [])
    | f :: rest => (.out f, rest)
  due s := s.length
  fewer {s o s'} received := by
    cases s with
    | nil => cases received
    | cons f rest =>
        cases received
        exact Nat.lt_succ_self _

theorem promptDecoder_proper : promptDecoder.Proper where
  vain {s s' reply} received _ := by
    cases s with
    | nil =>
        cases received
        rfl
    | cons f rest => cases received
  accepts {s i s'} sent empty := by
    cases s with
    | nil => cases i <;> cases sent
    | cons f rest => exact empty f rest rfl
  untouched {s i s' reply} sent refused _ := by
    cases i with
    | none =>
        cases sent
        exact absurd rfl refused
    | some packet =>
        simp only [promptDecoder] at sent
        split at sent
        · cases sent
          exact absurd rfl refused
        · cases sent
          rfl

theorem promptDecoder_code (packet : AvPacket) :
    promptDecoder.code [] (some packet) =
      (.again, [], [{ pts := packet.pts, picture := packet.data }]) := by
  let frame : AvFrame := { pts := packet.pts, picture := packet.data }
  have sent : promptDecoder.send [] (some packet) = (.accepted, [frame]) := rfl
  have first : promptDecoder.receive [frame] = (.out frame, []) := rfl
  have last : promptDecoder.receive [] = (.stop .again, []) := rfl
  rw [Coder.code_accepted sent, Coder.drain_out first, Coder.drain_stop last]

def promptLibav : Libav (List AvFrame) where
  decoder := promptDecoder
  open2 _ _ := some []

/-- A packet of a stream, without a sequence header before it. -/
def framePacket (payload : Bytes) : MediaPacket :=
  { ptr := 0, streamId := 1, rtmpType := 9, url := [], app := [], cid := 7, type := .video,
    codec := .h264, keyFrame := true, data := [0x17, 1, 0, 0, 0] ++ payload }

theorem decoder_ready_prompt :
    ∃ d s, ((playback promptLibav).run [.write (framePacket [1])]).demux = some d ∧
      d.cc = some s ∧ (promptDecoder.send s (some { data := [2] })).1 ≠ .again := by
  have ran : ∃ d s, ((playback promptLibav).run [.write (framePacket [1])]).demux = some d ∧
      d.cc = some s ∧ ((playback promptLibav).run [.write (framePacket [1])]).replies = [.again] := by
    simp [Machine.run, playback, Playback.step, Playback.perform, FlvDecoder.wrapWrite, framePacket,
      FlvDecoder.decode, FlvDecoder.readPacket, FlvDemuxer.readPacket, FlvDecoder.decodePacket,
      promptLibav, promptDecoder_code, FrameManager.pipe, bind, Except.bind, pure, Except.pure]
  obtain ⟨d, s, demux, is_open, replies⟩ := ran
  refine ⟨d, s, demux, is_open, ?_⟩
  refine decoder_ready promptLibav promptDecoder_proper (fun _ _ s opens => ?_)
    [.write (framePacket [1])] (by simp [replies]) d s demux is_open { data := [2] }
  cases opens
  intro o s' received
  cases received

end DroneServer
