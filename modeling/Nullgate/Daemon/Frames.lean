/-
  File:      Nullgate/Daemon/Frames.lean
  Subject:   FRAMES ON A STREAM (`transport.rs`): a length, then the frame's CBOR.

  A stream is the bytes that arrive before its end. `read_frame` takes an end it meets in the
  length for the end of the stream, wherever in the length it is.

  * `writeFrame`, `readFrame`; `readFrames` -- so many reads in a row;
  * `contained` -- the frames that a cut leaves whole, and what is left behind them;
  * `readFrames_take`: what the reads of a cut stream yield;
  * **`cut_reads_right_iff`**: a whole stream reads back, and a cut one is read right exactly
    when the cut is not inside a length;
  * `cut_taken_for_end`: one that is.
-/
import Nullgate.Lib.Codec

namespace Nullgate

open Nullgate.Lib

/-! ## 1. Frames -/

/-- A request to the daemon. The transport and the handler tell only `Subscribe` from the
    others. -/
inductive IpcRequest (Call : Type) where
  | call (c : Call)
  | subscribe
  deriving DecidableEq

inductive Message (Call Response Event : Type) where
  | request (req : IpcRequest Call)
  | response (resp : Response)
  | event (e : Event)
  deriving DecidableEq

/-- A message with its correlation id. -/
structure Frame (Call Response Event : Type) where
  id : UInt64
  body : Message Call Response Event
  deriving DecidableEq

/-! ## 2. Reading and writing -/

inductive IoError where
  | unexpectedEof
  | invalidData (text : String)
  deriving DecidableEq

/-- The frames' CBOR (`encode` and `decode` of `lib.rs`). -/
structure FrameCodec (F : Type) where
  encode : F → Except String (List UInt8)
  decode : List UInt8 → Except String F

/-- A frame's CBOR round-trips, and its length fits into the header. -/
def FrameCodec.Good {F : Type} (C : FrameCodec F) (frame : F) : Prop :=
  ∃ bytes, C.encode frame = .ok bytes ∧ C.decode bytes = .ok frame ∧ bytes.length < 2 ^ 32

variable {F : Type} (C : FrameCodec F)

/-- `write_frame`: what goes out. -/
def writeFrame (frame : F) : Except IoError (List UInt8) :=
  match C.encode frame with
  | .ok bytes => .ok (beBytes 4 bytes.length ++ bytes)
  | .error e => .error (.invalidData e)

/-- `read_u32`, and the stream behind it. -/
def readU32 (stream : List UInt8) : Except IoError Nat × List UInt8 :=
  if stream.length < 4 then (.error .unexpectedEof, [])
  else (.ok (ofBe (stream.take 4)), stream.drop 4)

def readExact (len : Nat) (stream : List UInt8) : Except IoError (List UInt8) × List UInt8 :=
  if stream.length < len then (.error .unexpectedEof, [])
  else (.ok (stream.take len), stream.drop len)

/-- **Read one frame.** -/
def readFrame (stream : List UInt8) : Except IoError (Option F) × List UInt8 :=
  match readU32 stream with
  -- an end inside the length counts as a clean one
  | (.error .unexpectedEof, rest) => (.ok none, rest)
  | (.error e, rest) => (.error e, rest)
  | (.ok len, rest) =>
    match readExact len rest with
    | (.error e, rest) => (.error e, rest)
    | (.ok buf, rest) =>
      match C.decode buf with
      | .error e => (.error (.invalidData e), rest)
      | .ok frame => (.ok (some frame), rest)

/-- The frames, one behind the other. -/
def writeFrames : List F → Except IoError (List UInt8)
  | [] => .ok []
  | frame :: frames => do
    let bytes ← writeFrame C frame
    let rest ← writeFrames frames
    pure (bytes ++ rest)

/-- What `count` reads in a row yield. -/
def readFrames : (count : Nat) → List UInt8 → List (Except IoError (Option F))
  | 0, _ => []
  | count + 1, stream =>
    let read := readFrame C stream
    read.1 :: readFrames count read.2

/-! ## 3. Cut streams -/

/-- The bytes a frame takes on the stream. -/
def wireLength (frame : F) : Nat :=
  match writeFrame C frame with
  | .ok bytes => bytes.length
  | .error _ => 0

/-- **The frames that lie within the first `cut` bytes**, and how many of these are left behind
    the last of them. -/
def contained : List F → (cut : Nat) → List F × Nat
  | [], cut => ([], cut)
  | frame :: frames, cut =>
    if wireLength C frame ≤ cut then
      let behind := contained frames (cut - wireLength C frame)
      (frame :: behind.1, behind.2)
    else ([], cut)

/-- The reads of the first `cut` bytes yield the frames that lie within them, and then the end
    if the cut is between two frames, an error otherwise. -/
def CutReadsRight (frames : List F) (stream : List UInt8) (cut : Nat) : Prop :=
  let cutFrames := contained C frames cut
  ∃ last, readFrames C (cutFrames.1.length + 1) (stream.take cut) =
      cutFrames.1.map (fun frame => .ok (some frame)) ++ [last] ∧
    if cutFrames.2 = 0 then last = .ok none else ∃ e, last = .error e

/-- What the read behind the last whole frame yields. -/
def lastRead (left : Nat) : Except IoError (Option F) :=
  if left < 4 then .ok none else .error .unexpectedEof

/-! ## 4. One frame -/

variable {C} {frame : F} {bytes rest stream : List UInt8}

/-- What is written for a good frame: four bytes of length, and its CBOR. -/
theorem writeFrame_good (h : C.Good frame) :
    ∃ body, writeFrame C frame = .ok (beBytes 4 body.length ++ body) ∧
      C.decode body = .ok frame ∧ body.length < 2 ^ 32 := by
  obtain ⟨body, henc, hdec, hlen⟩ := h
  exact ⟨body, by rw [writeFrame, henc], hdec, hlen⟩

theorem readU32_beBytes {n : Nat} (h : n < 2 ^ 32) :
    readU32 (beBytes 4 n ++ rest) = (.ok n, rest) := by
  have hlen := length_beBytes 4 n
  have hlong : ¬ (beBytes 4 n ++ rest).length < 4 := by
    rw [List.length_append]
    omega
  rw [readU32, if_neg hlong, List.take_left' hlen, List.drop_left' hlen, ofBe_beBytes h]

/-- **A frame reads back**, and the read stops behind it. -/
theorem readFrame_append (h : C.Good frame) (hw : writeFrame C frame = .ok bytes) :
    readFrame C (bytes ++ rest) = (.ok (some frame), rest) := by
  obtain ⟨body, hbody, hdec, hlen⟩ := writeFrame_good h
  rw [hbody] at hw
  cases hw
  have hread : readExact body.length (body ++ rest) = (.ok body, rest) := by
    have hlong : ¬ (body ++ rest).length < body.length := by
      rw [List.length_append]
      omega
    rw [readExact, if_neg hlong, List.take_left, List.drop_left]
  rw [readFrame, List.append_assoc, readU32_beBytes hlen]
  simp only [hread, hdec]

/-- Less than a length is taken for the end. -/
theorem readFrame_short (h : stream.length < 4) : readFrame C stream = (.ok none, []) := by
  rw [readFrame, readU32, if_pos h]

/-- A frame whose body is cut. -/
theorem readFrame_cut (h : C.Good frame) (hw : writeFrame C frame = .ok bytes) {cut : Nat}
    (h4 : 4 ≤ cut) (hcut : cut < bytes.length) :
    readFrame C (bytes.take cut) = (.error .unexpectedEof, []) := by
  obtain ⟨body, hbody, -, hlen⟩ := writeFrame_good h
  rw [hbody] at hw
  cases hw
  have hlength := length_beBytes 4 body.length
  rw [List.length_append, hlength] at hcut
  have hsplit : (beBytes 4 body.length ++ body).take cut =
      beBytes 4 body.length ++ body.take (cut - 4) := by
    rw [List.take_append, List.take_of_length_le (by omega), hlength]
  have hshort : (body.take (cut - 4)).length < body.length := by
    rw [List.length_take]
    omega
  rw [hsplit, readFrame, readU32_beBytes hlen]
  simp only [readExact, if_pos hshort]

/-! ## 5. Streams of frames -/

theorem wireLength_eq (hw : writeFrame C frame = .ok bytes) :
    wireLength C frame = bytes.length := by
  rw [wireLength, hw]

theorem writeFrames_cons_ok {frames : List F}
    (h : writeFrames C (frame :: frames) = .ok stream) :
    ∃ bytes rest, writeFrame C frame = .ok bytes ∧ writeFrames C frames = .ok rest ∧
      stream = bytes ++ rest := by
  rw [writeFrames] at h
  cases hw : writeFrame C frame with
  | error e =>
    rw [hw] at h
    cases h
  | ok bytes =>
    cases hr : writeFrames C frames with
    | error e =>
      rw [hw, hr] at h
      cases h
    | ok rest =>
      rw [hw, hr] at h
      cases h
      exact ⟨bytes, rest, rfl, rfl, rfl⟩

/-- Good frames can be written. -/
theorem writeFrames_good {frames : List F} (h : ∀ frame ∈ frames, C.Good frame) :
    ∃ stream, writeFrames C frames = .ok stream := by
  induction frames with
  | nil => exact ⟨[], rfl⟩
  | cons frame frames ih =>
    obtain ⟨body, hw, -⟩ := writeFrame_good (h frame List.mem_cons_self)
    obtain ⟨rest, hr⟩ := ih fun f hf => h f (List.mem_cons_of_mem _ hf)
    exact ⟨_, by rw [writeFrames, hw, hr]; rfl⟩

/-- A cut at the end of the stream leaves every frame whole. -/
theorem contained_length {frames : List F} (hw : writeFrames C frames = .ok stream) :
    contained C frames stream.length = (frames, 0) := by
  induction frames generalizing stream with
  | nil =>
    cases hw
    rfl
  | cons frame frames ih =>
    obtain ⟨bytes, rest, hb, hr, rfl⟩ := writeFrames_cons_ok hw
    rw [contained, wireLength_eq hb, List.length_append, if_pos (Nat.le_add_right _ _),
      Nat.add_sub_cancel_left, ih hr]

/-- **What the reads of a cut stream yield**: the frames that lie within, and behind them the
    end or an error. -/
theorem readFrames_take {frames : List F} (h : ∀ frame ∈ frames, C.Good frame)
    (hw : writeFrames C frames = .ok stream) {cut : Nat} (hcut : cut ≤ stream.length) :
    readFrames C ((contained C frames cut).1.length + 1) (stream.take cut) =
      (contained C frames cut).1.map (fun frame => .ok (some frame)) ++
        [lastRead (contained C frames cut).2] := by
  induction frames generalizing stream cut with
  | nil =>
    cases hw
    have hzero : cut = 0 := Nat.le_zero.mp hcut
    subst hzero
    rfl
  | cons frame frames ih =>
    obtain ⟨bytes, rest, hb, hr, rfl⟩ := writeFrames_cons_ok hw
    have hgood := h frame List.mem_cons_self
    rw [List.length_append] at hcut
    by_cases hle : bytes.length ≤ cut
    · -- the frame lies within: it is read, and the rest is a cut stream again
      have hcut' : cut - bytes.length ≤ rest.length := by omega
      have hih := ih (fun f hf => h f (List.mem_cons_of_mem _ hf)) hr hcut'
      rw [contained, wireLength_eq hb, if_pos hle, List.take_append, List.take_of_length_le hle,
        List.length_cons, readFrames, readFrame_append hgood hb, hih]
      rfl
    · have hcontained : contained C (frame :: frames) cut = ([], cut) := by
        rw [contained, wireLength_eq hb, if_neg hle]
      have htake : (bytes ++ rest).take cut = bytes.take cut :=
        List.take_append_of_le_length (by omega)
      rw [hcontained, htake]
      by_cases h4 : cut < 4
      · have hshort : (bytes.take cut).length < 4 := by
          rw [List.length_take]
          omega
        rw [List.length_nil, readFrames, readFrame_short hshort, lastRead, if_pos h4]
        rfl
      · have hbody := readFrame_cut hgood hb (Nat.not_lt.mp h4) (Nat.not_le.mp hle)
        rw [List.length_nil, readFrames, hbody, lastRead, if_neg h4]
        rfl

/-- A cut stream is read right where no length is cut. -/
theorem cutReadsRight_iff {frames : List F} (h : ∀ frame ∈ frames, C.Good frame)
    (hw : writeFrames C frames = .ok stream) {cut : Nat} (hcut : cut ≤ stream.length) :
    CutReadsRight C frames stream cut ↔
      (contained C frames cut).2 = 0 ∨ 4 ≤ (contained C frames cut).2 := by
  have hread := readFrames_take h hw hcut
  constructor
  · rintro ⟨last, hlast, hright⟩
    rw [hread, List.append_cancel_left_eq] at hlast
    cases hlast
    by_cases h0 : (contained C frames cut).2 = 0
    · exact Or.inl h0
    · rw [if_neg h0] at hright
      obtain ⟨e, he⟩ := hright
      refine Or.inr (Nat.not_lt.mp fun hlt => ?_)
      rw [lastRead, if_pos hlt] at he
      cases he
  · intro hleft
    refine ⟨_, hread, ?_⟩
    rcases hleft with h0 | h4
    · rw [if_pos h0, lastRead, if_pos (by omega)]
    · rw [if_neg (by omega), lastRead, if_neg (by omega)]
      exact ⟨_, rfl⟩

/-- **A whole stream reads back**, frame by frame and then its end, and a cut one is read right
    exactly when the cut is not one, two or three bytes behind a frame. -/
theorem cut_reads_right_iff {frames : List F} (h : ∀ frame ∈ frames, C.Good frame) :
    ∃ stream, writeFrames C frames = .ok stream ∧
      readFrames C (frames.length + 1) stream =
        frames.map (fun frame => .ok (some frame)) ++ [.ok none] ∧
      ∀ cut < stream.length, CutReadsRight C frames stream cut ↔
        (contained C frames cut).2 = 0 ∨ 4 ≤ (contained C frames cut).2 := by
  obtain ⟨stream, hw⟩ := writeFrames_good h
  refine ⟨stream, hw, ?_, fun cut hcut => cutReadsRight_iff h hw hcut.le⟩
  have hwhole := readFrames_take h hw le_rfl
  rw [contained_length hw, List.take_length] at hwhole
  exact hwhole

namespace Sample

/-- The CBOR of a `GetStatus` request under a small id. -/
def getStatusCbor (id : UInt64) : List UInt8 :=
  [0xa2, 0x62, 0x69, 0x64, id.toUInt8, 0x64, 0x62, 0x6f, 0x64, 0x79, 0xa1, 0x67,
    0x52, 0x65, 0x71, 0x75, 0x65, 0x73, 0x74,
    0x69, 0x47, 0x65, 0x74, 0x53, 0x74, 0x61, 0x74, 0x75, 0x73]

/-- A `GetStatus` request. -/
def getStatus (id : UInt64) : Frame Unit Unit Unit := ⟨id, .request (.call ())⟩

/-- The codec, as far as such requests go. -/
def frameCodec : FrameCodec (Frame Unit Unit Unit) where
  encode frame :=
    if frame = getStatus frame.id ∧ frame.id < 24 then .ok (getStatusCbor frame.id)
    else .error "cbor encode"
  decode bytes :=
    let id := (bytes.getD 4 0).toUInt64
    if id < 24 ∧ bytes = getStatusCbor id then .ok (getStatus id) else .error "cbor decode"

theorem frameCodec_good : ∀ frame ∈ [getStatus 1, getStatus 2], frameCodec.Good frame := by
  intro frame hframe
  simp only [List.mem_cons, List.not_mem_nil, or_false] at hframe
  rcases hframe with rfl | rfl
  · exact ⟨getStatusCbor 1, by decide, by decide, by decide⟩
  · exact ⟨getStatusCbor 2, by decide, by decide, by decide⟩

end Sample

open Sample in
/-- Two requests, cut between them and inside the second one's body. -/
theorem cut_reads_right_iff_two :
    ∃ stream, writeFrames frameCodec [getStatus 1, getStatus 2] = .ok stream ∧
      readFrames frameCodec 3 stream =
        [.ok (some (getStatus 1)), .ok (some (getStatus 2)), .ok none] ∧
      CutReadsRight frameCodec [getStatus 1, getStatus 2] stream 33 ∧
      CutReadsRight frameCodec [getStatus 1, getStatus 2] stream 40 := by
  obtain ⟨stream, hw, hread, hcut⟩ := cut_reads_right_iff frameCodec_good
  have hlen : stream.length = 66 := by
    have heq : writeFrames frameCodec [getStatus 1, getStatus 2] = .ok stream := hw
    have hsome : (writeFrames frameCodec [getStatus 1, getStatus 2]).toOption.map List.length =
        some 66 := by decide
    rw [heq] at hsome
    exact Option.some.inj hsome
  exact ⟨stream, hw, hread, (hcut 33 (by omega)).mpr (by decide),
    (hcut 40 (by omega)).mpr (by decide)⟩

open Sample in
/-- A stream cut inside the length of its second frame ends like a whole one. -/
theorem cut_taken_for_end :
    ∃ stream, writeFrames frameCodec [getStatus 1, getStatus 2] = .ok stream ∧
      35 < stream.length ∧
      readFrames frameCodec 2 (stream.take 35) = [.ok (some (getStatus 1)), .ok none] ∧
      ¬ CutReadsRight frameCodec [getStatus 1, getStatus 2] stream 35 := by
  obtain ⟨stream, hw⟩ := writeFrames_good frameCodec_good
  have hlen : 35 < stream.length := by
    have hsome : (writeFrames frameCodec [getStatus 1, getStatus 2]).toOption.map List.length =
        some 66 := by decide
    rw [hw] at hsome
    rw [Option.some.inj hsome]
    decide
  refine ⟨stream, hw, hlen, ?_, ?_⟩
  · exact readFrames_take frameCodec_good hw hlen.le
  · rw [cutReadsRight_iff frameCodec_good hw hlen.le]
    decide

end Nullgate
