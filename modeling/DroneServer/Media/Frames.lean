import DroneServer.Lib.Topic
import DroneServer.Media
import Mathlib.Data.List.Nodup

/-! # The frames of a drone: `media_copypipe` and `media_manager`

A pipe passes each decoded frame to its writers and keeps the last header frame,
which a writer gets as it is added. Pipes come into being when they are asked for
and go when the publisher leaves. For every drone the manager is a `Topic`, and
that is what a writer hears over a whole run.
-/

namespace DroneServer

/-- What the program reads of an `AVFrame`. -/
structure AvFrame where
  pts : Int := 0
  keyFrame : Bool := false
  nbSideData : Nat := 0
  width : Nat := 0
  height : Nat := 0
  format : Int := 0
  picture : Bytes := []
  deriving DecidableEq, Repr

/-- What `on_decoded` takes for a header. -/
def AvFrame.isHeader (f : AvFrame) : Bool := f.pts == 0 && f.keyFrame && decide (f.nbSideData > 0)

/-- A call of a writer's `write_frame`, with the drone it is told. -/
structure Written where
  writer : WriterId
  cid : ClientId
  frame : AvFrame
  deriving DecidableEq, Repr

namespace MediaCopypipe

variable {p : MediaCopypipe} {w : WriterId}

@[simp] theorem addWriter_cid : (p.addWriter w).cid = p.cid := by
  unfold addWriter
  split <;> rfl

theorem addWriter_nodup (once : p.writers.Nodup) : (p.addWriter w).writers.Nodup := by
  unfold addWriter
  split
  · exact once
  · next fresh =>
      refine List.nodup_append.mpr ⟨once, List.nodup_singleton w, ?_⟩
      rintro x inside y last rfl
      exact fresh (List.mem_singleton.mp last ▸ inside)

end MediaCopypipe

/-- `media_copypipe` with its header; `writers` is a set. -/
structure FramePipe extends MediaCopypipe where
  header : Option AvFrame := none
  once : writers.Nodup := by simp
  deriving DecidableEq

namespace FramePipe

def writeFrame (p : FramePipe) (f : AvFrame) : List Written :=
  p.writers.map fun writer => { writer, cid := p.cid, frame := f }

/-- The frame is cloned; an earlier header is overwritten. -/
def writeHeader (p : FramePipe) (f : AvFrame) : FramePipe × List Written :=
  let p := { p with header := some f }
  (p, p.writeFrame f)

/-- The header goes to a writer that is added again, too. -/
def addWriter (p : FramePipe) (writer : WriterId) : FramePipe × List Written :=
  ({ p with
      toMediaCopypipe := p.toMediaCopypipe.addWriter writer
      once := MediaCopypipe.addWriter_nodup p.once },
    p.header.toList.map fun frame => { writer, cid := p.cid, frame })

def delWriter (p : FramePipe) (w : WriterId) : FramePipe :=
  { p with toMediaCopypipe := p.toMediaCopypipe.delWriter w, once := p.once.filter _ }

end FramePipe

/-- `media_manager`. -/
structure FrameManager where
  recs : ClientId → Option FramePipe := fun _ => none

/-- What the rest of the program does to the pipes: `pipe(cid)->add_writer`, `pipe(cid)->del_writer`,
    `erase`, and `on_decoded` of the drone's demuxer. -/
inductive MediaCall where
  | addWriter (cid : ClientId) (w : WriterId)
  | delWriter (cid : ClientId) (w : WriterId)
  | erase (cid : ClientId)
  | onDecoded (cid : ClientId) (f : AvFrame)
  deriving DecidableEq

namespace FrameManager

/-- `pipe(cid)` creates the pipe it does not find. -/
def pipe (mm : FrameManager) (cid : ClientId) : FramePipe := (mm.recs cid).getD { cid }

def put (mm : FrameManager) (cid : ClientId) (p : FramePipe) : FrameManager :=
  { recs := Function.update mm.recs cid (some p) }

/-- The manager afterwards, and the writers called meanwhile. -/
def perform (mm : FrameManager) : MediaCall → FrameManager × List Written
  | .addWriter cid w =>
      let (p, calls) := (mm.pipe cid).addWriter w
      (mm.put cid p, calls)
  | .delWriter cid w => (mm.put cid ((mm.pipe cid).delWriter w), [])
  | .erase cid => ({ recs := Function.update mm.recs cid none }, [])
  | .onDecoded cid f =>
      let p := mm.pipe cid
      if f.isHeader then
        let (p, calls) := p.writeHeader f
        (mm.put cid p, calls)
      else (mm.put cid p, p.writeFrame f)

/-- The frames of a drone a writer was called with. -/
def passedTo (cid : ClientId) (w : WriterId) (written : List Written) : List AvFrame :=
  written.filterMap fun call =>
    if call.writer = w ∧ call.cid = cid then some call.frame else none

/-- What the calls make a writer write of a drone, in order. -/
def heard (mm : FrameManager) (cid : ClientId) (w : WriterId) : List MediaCall → List AvFrame
  | [] => []
  | c :: calls => passedTo cid w (mm.perform c).2 ++ (mm.perform c).1.heard cid w calls

/-- The pipe of one drone as a topic; a pipe that is not there is an empty one. -/
def topic (mm : FrameManager) (cid : ClientId) : Topic WriterId AvFrame :=
  { members := (mm.pipe cid).writers, retained := (mm.pipe cid).header }

end FrameManager

namespace MediaCall

/-- What a call does to the topic of one drone. -/
def act (cid : ClientId) : MediaCall → Option (Topic.Act WriterId AvFrame)
  | .addWriter cid' w => if cid' = cid then some (.join w) else none
  | .delWriter cid' w => if cid' = cid then some (.leave w) else none
  | .erase cid' => if cid' = cid then some .dissolve else none
  | .onDecoded cid' f =>
      if cid' = cid then some (if f.isHeader then .retain f else .post f) else none

/-- The frames decoded for a drone, in order. -/
def frames (cid : ClientId) (calls : List MediaCall) : List AvFrame :=
  calls.filterMap fun
    | .onDecoded cid' f => if cid' = cid then some f else none
    | .addWriter .. | .delWriter .. | .erase .. => none

/-- The last header frame decoded for a drone since its pipe was last erased. -/
def lastHeader (cid : ClientId) (calls : List MediaCall) : Option AvFrame :=
  calls.foldl (fun header call =>
    match call with
    | .onDecoded cid' f => if cid' = cid ∧ f.isHeader then some f else header
    | .erase cid' => if cid' = cid then none else header
    | .addWriter .. | .delWriter .. => header) none

end MediaCall

namespace FrameManager

/-- Every pipe is registered under its own drone. -/
def Filed (mm : FrameManager) : Prop := ∀ cid p, mm.recs cid = some p → p.cid = cid

theorem Filed.pipe {mm : FrameManager} (filed : mm.Filed) (cid : ClientId) :
    (mm.pipe cid).cid = cid := by
  unfold FrameManager.pipe
  cases found : mm.recs cid with
  | none => rfl
  | some p => exact filed cid p found

theorem pipe_put (mm : FrameManager) (cid cid' : ClientId) (p : FramePipe) :
    (mm.put cid p).pipe cid' = if cid' = cid then p else mm.pipe cid' := by
  unfold pipe put
  by_cases same : cid' = cid
  · simp [same]
  · simp [same]

theorem Filed.put {mm : FrameManager} (filed : mm.Filed) {cid : ClientId} {p : FramePipe}
    (own : p.cid = cid) : (mm.put cid p).Filed := by
  intro cid' p' found
  simp only [FrameManager.put] at found
  by_cases same : cid' = cid
  · subst same
    rw [Function.update_self] at found
    cases found
    exact own
  · rw [Function.update_of_ne same] at found
    exact filed cid' p' found

theorem Filed.perform {mm : FrameManager} (filed : mm.Filed) (c : MediaCall) :
    (mm.perform c).1.Filed := by
  cases c with
  | addWriter cid w => exact filed.put (MediaCopypipe.addWriter_cid.trans (filed.pipe cid))
  | delWriter cid w => exact filed.put (filed.pipe cid)
  | erase cid =>
      intro cid' p found
      simp only [FrameManager.perform] at found
      by_cases same : cid' = cid
      · rw [same, Function.update_self] at found
        cases found
      · rw [Function.update_of_ne same] at found
        exact filed cid' p found
  | onDecoded cid f =>
      simp only [FrameManager.perform]
      split
      · exact filed.put (filed.pipe cid)
      · exact filed.put (filed.pipe cid)

theorem passedTo_writeFrame (p : FramePipe) (f : AvFrame) (cid : ClientId) (w : WriterId) :
    passedTo cid w (p.writeFrame f) = if p.cid = cid ∧ w ∈ p.writers then [f] else [] := by
  have once := p.once
  unfold passedTo FramePipe.writeFrame
  generalize p.writers = writers at once
  induction writers with
  | nil => simp
  | cons w' writers ih =>
      obtain ⟨fresh, once⟩ := List.nodup_cons.mp once
      rw [List.map_cons, List.filterMap_cons, ih once]
      by_cases own : p.cid = cid
      · by_cases same : w' = w
        · subst same
          simp [own, fresh]
        · have other : w ≠ w' := fun equal => same equal.symm
          simp [own, same, other]
      · simp [own]

variable {mm : FrameManager}

theorem topic_put (mm : FrameManager) (cid cid' : ClientId) (p : FramePipe) :
    (mm.put cid p).topic cid' =
      if cid' = cid then { members := p.writers, retained := p.header } else mm.topic cid' := by
  unfold topic
  rw [pipe_put]
  split <;> rfl

/-- A call does to a drone's topic what it says, and nothing to those of others. -/
theorem topic_perform (mm : FrameManager) (c : MediaCall) (cid : ClientId) :
    (mm.perform c).1.topic cid = (c.act cid).elim (mm.topic cid) (mm.topic cid).step := by
  cases c with
  | addWriter cid' w =>
      simp only [perform, topic_put, MediaCall.act]
      by_cases same : cid = cid'
      · subst same
        simp only [if_true, Option.elim_some, Topic.step, FramePipe.addWriter,
          MediaCopypipe.addWriter, topic]
        split <;> rfl
      · simp only [same, Ne.symm same, if_false, Option.elim_none]
  | delWriter cid' w =>
      simp only [perform, topic_put, MediaCall.act]
      by_cases same : cid = cid'
      · subst same
        simp only [if_true]
        rfl
      · simp only [same, Ne.symm same, if_false, Option.elim_none]
  | erase cid' =>
      simp only [perform, MediaCall.act, topic, pipe]
      by_cases same : cid = cid'
      · subst same
        simp [Topic.step]
      · simp [same, Ne.symm same]
  | onDecoded cid' f =>
      simp only [perform, MediaCall.act]
      by_cases header : f.isHeader
      · simp only [header, if_true, topic_put, FramePipe.writeHeader]
        by_cases same : cid = cid'
        · subst same
          simp only [if_true]
          rfl
        · simp only [same, Ne.symm same, if_false, Option.elim_none]
      · simp only [header, Bool.false_eq_true, if_false, topic_put]
        by_cases same : cid = cid'
        · subst same
          simp only [if_true]
          rfl
        · simp only [same, Ne.symm same, if_false, Option.elim_none]

theorem passedTo_perform (filed : mm.Filed) (c : MediaCall) (cid : ClientId) (w : WriterId) :
    passedTo cid w (mm.perform c).2 = (c.act cid).elim [] ((mm.topic cid).hears w) := by
  have own := filed.pipe
  cases c with
  | addWriter cid' w' =>
      simp only [perform, MediaCall.act, FramePipe.addWriter, passedTo, own, topic]
      by_cases same : cid' = cid
      · subst same
        by_cases here : w' = w
        · cases (mm.pipe cid').header <;> simp [here, Topic.hears]
        · cases (mm.pipe cid').header <;> simp [here, Topic.hears]
      · cases (mm.pipe cid').header <;> simp [same]
  | delWriter cid' w' =>
      simp only [perform, MediaCall.act, passedTo, List.filterMap_nil]
      split <;> rfl
  | erase cid' =>
      simp only [perform, MediaCall.act, passedTo, List.filterMap_nil]
      split <;> rfl
  | onDecoded cid' f =>
      simp only [perform, MediaCall.act]
      by_cases header : f.isHeader
      · simp only [header, if_true, FramePipe.writeHeader, passedTo_writeFrame, own]
        by_cases same : cid' = cid
        · subst same
          simp only [true_and, if_true, Option.elim_some, Topic.hears, topic]
        · simp only [same, false_and, if_false, Option.elim_none]
      · simp only [header, Bool.false_eq_true, if_false, passedTo_writeFrame, own]
        by_cases same : cid' = cid
        · subst same
          simp only [true_and, if_true, Option.elim_some, Topic.hears, topic]
        · simp only [same, false_and, if_false, Option.elim_none]

/-- The manager refines a topic for every drone. -/
theorem heard_topic (filed : mm.Filed) (cid : ClientId) (w : WriterId) (calls : List MediaCall) :
    mm.heard cid w calls = (mm.topic cid).heard w (calls.filterMap (MediaCall.act cid)) := by
  induction calls generalizing mm with
  | nil => rfl
  | cons c calls ih =>
      rw [heard, ih (filed.perform c), topic_perform, passedTo_perform filed, List.filterMap_cons]
      cases c.act cid <;> rfl

end FrameManager

namespace MediaCall

theorem posted_act (cid : ClientId) (calls : List MediaCall) :
    Topic.posted (calls.filterMap (act cid)) = frames cid calls := by
  unfold Topic.posted frames
  rw [List.filterMap_filterMap]
  congr 1
  funext c
  cases c with
  | onDecoded cid' f =>
      simp only [act]
      by_cases same : cid' = cid <;> by_cases header : f.isHeader <;> simp [same, header, Topic.Act.posted]
  | addWriter cid' | delWriter cid' | erase cid' =>
      simp only [act]
      by_cases same : cid' = cid <;> simp [same, Topic.Act.posted]

theorem retained_act (cid : ClientId) (calls : List MediaCall) :
    (({} : Topic WriterId AvFrame).exec (calls.filterMap (act cid))).retained =
      lastHeader cid calls := by
  induction calls using List.reverseRecOn with
  | nil => rfl
  | append_singleton calls c ih =>
      have last : lastHeader cid (calls ++ [c]) = match c with
          | .onDecoded cid' f =>
              if cid' = cid ∧ f.isHeader then some f else lastHeader cid calls
          | .erase cid' => if cid' = cid then none else lastHeader cid calls
          | .addWriter .. | .delWriter .. => lastHeader cid calls := by
        rw [lastHeader, List.foldl_append]
        rfl
      rw [List.filterMap_append, Topic.exec_append, last]
      cases c with
      | onDecoded cid' f =>
          by_cases same : cid' = cid <;> by_cases header : f.isHeader <;>
            simp [act, same, header, Topic.step, ih]
      | addWriter cid' w =>
          by_cases same : cid' = cid
          · simp only [List.filterMap_cons, List.filterMap_nil, act, same, if_true, Topic.exec_cons,
              Topic.exec_nil, Topic.step]
            split <;> exact ih
          · simp [act, same, ih]
      | delWriter cid' w => by_cases same : cid' = cid <;> simp [act, same, Topic.step, ih]
      | erase cid' => by_cases same : cid' = cid <;> simp [act, same, Topic.step, ih]

/-- The calls leave a writer of a drone where it is, and the drone its pipe. -/
def Keeps (cid : ClientId) (w : WriterId) (calls : List MediaCall) : Prop :=
  ∀ c ∈ calls, c ≠ .addWriter cid w ∧ c ≠ .delWriter cid w ∧ c ≠ .erase cid

instance (cid : ClientId) (w : WriterId) (calls : List MediaCall) : Decidable (Keeps cid w calls) :=
  inferInstanceAs (Decidable (∀ c ∈ calls, _))

theorem Keeps.steady {cid : ClientId} {w : WriterId} {calls : List MediaCall}
    (keeps : Keeps cid w calls) : Topic.Steady w (calls.filterMap (act cid)) := by
  intro a among
  obtain ⟨c, inside, acts⟩ := List.mem_filterMap.mp among
  obtain ⟨adds, dels, erases⟩ := keeps c inside
  cases c with
  | addWriter cid' w' | delWriter cid' w' =>
      simp only [act] at acts
      split at acts
      · next same =>
          cases acts
          subst same
          refine ⟨?_, ?_, by simp⟩ <;> simp_all
      · cases acts
  | erase cid' =>
      simp only [act] at acts
      split at acts
      · next same =>
          subst same
          exact absurd rfl erases
      · cases acts
  | onDecoded cid' f =>
      simp only [act] at acts
      split at acts
      · cases acts
        split <;> exact ⟨by simp, by simp, by simp⟩
      · cases acts

end MediaCall

namespace FrameManager

theorem filed_empty : ({} : FrameManager).Filed := fun cid p found => by cases found

/-- What a writer hears from the time it is added to a drone's pipe. -/
theorem heard_added {cid : ClientId} {w : WriterId} (before : List MediaCall)
    {during : List MediaCall} (keeps : MediaCall.Keeps cid w during) :
    heard {} cid w (before ++ .addWriter cid w :: during) =
      heard {} cid w before ++ (MediaCall.lastHeader cid before).toList ++
        MediaCall.frames cid during := by
  have joins : MediaCall.act cid (.addWriter cid w) = some (.join w) := by simp [MediaCall.act]
  have empty : ({} : FrameManager).topic cid = {} := rfl
  rw [heard_topic filed_empty, heard_topic filed_empty, empty, List.filterMap_append,
    List.filterMap_cons, joins, Topic.heard_joined _ keeps.steady, MediaCall.retained_act,
    MediaCall.posted_act]

theorem not_joins {cid : ClientId} {w : WriterId} {calls : List MediaCall}
    (stays : .addWriter cid w ∉ calls) :
    ∀ a ∈ calls.filterMap (MediaCall.act cid), a ≠ .join w := by
  rintro a among rfl
  obtain ⟨c, inside, acts⟩ := List.mem_filterMap.mp among
  cases c with
  | addWriter cid' w' =>
      simp only [MediaCall.act] at acts
      split at acts
      · next same =>
          cases acts
          exact stays (same ▸ inside)
      · cases acts
  | delWriter | erase =>
      simp only [MediaCall.act] at acts
      split at acts <;> cases acts
  | onDecoded cid' f =>
      simp only [MediaCall.act] at acts
      split at acts
      · split at acts <;> cases acts
      · cases acts

theorem heard_never_added {cid : ClientId} {w : WriterId} {calls : List MediaCall}
    (stays : .addWriter cid w ∉ calls) : heard {} cid w calls = [] := by
  rw [heard_topic filed_empty]
  exact Topic.heard_outside List.not_mem_nil (not_joins stays)

end FrameManager

/-- Over any run of the pipes, with any number of drones and writers: from the time it is added to a
    drone's pipe a writer is called with the drone's last header frame, if there was one since the
    pipe was made, and then with exactly the frames decoded for the drone, in order, each once; and
    from the time it is removed, or the pipe erased, with nothing, until it is added again. -/
theorem writer_hears_drone (cid : ClientId) (w : WriterId) (before during after : List MediaCall)
    (keeps : MediaCall.Keeps cid w during) (gone : MediaCall)
    (leaves : gone = .delWriter cid w ∨ gone = .erase cid) (stays : .addWriter cid w ∉ after) :
    FrameManager.heard {} cid w (before ++ .addWriter cid w :: during) =
      FrameManager.heard {} cid w before ++ (MediaCall.lastHeader cid before).toList ++
        MediaCall.frames cid during ∧
    FrameManager.heard {} cid w (before ++ .addWriter cid w :: during ++ gone :: after) =
      FrameManager.heard {} cid w (before ++ .addWriter cid w :: during) := by
  refine ⟨FrameManager.heard_added before keeps, ?_⟩
  simp only [FrameManager.heard_topic FrameManager.filed_empty]
  rw [List.filterMap_append (l := before ++ .addWriter cid w :: during), Topic.heard_append,
    List.filterMap_cons]
  generalize Topic.exec (κ := WriterId) (μ := AvFrame) _ _ = t
  -- whoever has left does not come back
  have silent : ∀ a, (a = .leave w ∨ a = .dissolve) →
      t.heard w (a :: after.filterMap (MediaCall.act cid)) = [] := by
    rintro a left
    have outside : w ∉ (t.step a).members := by
      rcases left with rfl | rfl
      · simp [Topic.step]
      · simp [Topic.step]
    rw [Topic.heard, Topic.heard_outside outside (FrameManager.not_joins stays)]
    rcases left with rfl | rfl <;> rfl
  rcases leaves with rfl | rfl
  · simp [MediaCall.act, silent]
  · simp [MediaCall.act, silent]

/-- A writer added between two key frames, beside another drone, and removed again. -/
theorem writer_hears_drone_late :
    let head : AvFrame := { keyFrame := true, nbSideData := 1, picture := [1] }
    let frame (n : UInt8) : AvFrame := { pts := 40, picture := [n] }
    FrameManager.heard {} 7 0 ([.onDecoded 7 head, .onDecoded 7 (frame 2), .onDecoded 8 (frame 3)] ++
      .addWriter 7 0 :: [.onDecoded 8 (frame 4), .onDecoded 7 (frame 5)] ++
      .delWriter 7 0 :: [.onDecoded 7 (frame 6)]) = [head, frame 5] := by
  intro head frame
  obtain ⟨while_there, later⟩ := writer_hears_drone 7 0
    [.onDecoded 7 head, .onDecoded 7 (frame 2), .onDecoded 8 (frame 3)]
    [.onDecoded 8 (frame 4), .onDecoded 7 (frame 5)] [.onDecoded 7 (frame 6)] (by decide)
    (.delWriter 7 0) (.inl rfl) (by decide)
  rw [later, while_there]
  rfl

end DroneServer
