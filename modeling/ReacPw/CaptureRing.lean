/-
The capture node's process callback over the receiver's ring (`on_process`).

The feeder writes what the wire brings into the ring, all rows at once; the callback reads
one quantum of every row into the planes of a buffer.  The ring has one read cursor for all
rows, so a channel whose plane is missing is read all the same, into a scratch buffer; and a
cycle that shows no plane at all reads nothing.  Before it reads, the callback drops what
lags more than four quanta.

The ring is a library's, a parameter here: `RingApi.Lawful` is what is relied on.  A frame
is a sample for every row.  Two things a ring may see are outside: a source that shrinks,
whose abandoned rows the ring silences in the frames that wait already, and a write between
the callback's trim and its reads.  The clock sample, the telemetry and the resampler's
ratio are not modelled.
-/
import ReacPw.Lib.Run
import ReacPw.Lib.Tape

namespace ReacPw

open Tape

/-! ### The ring -/

/-- `reac_ring`, over its states `ρ`. -/
structure RingApi (ρ α : Type*) where
  /-- The frames that wait to be read, oldest first. -/
  waiting : ρ → List (Nat → α)
  /-- How many it holds at most (`mask`). -/
  room : ρ → Nat
  write : ρ → List (Nat → α) → ρ
  /-- So many frames of the first rows, as planes. -/
  readPlanar : ρ → Nat → Nat → ρ × (Nat → List α)
  trim : ρ → Nat → ρ

/-- A plane of a read: the row of what was there, and silence for the rest. -/
def ringPlane {α : Type*} (silence : α) (frames : List (Nat → α)) (n c : Nat) : List α :=
  (frames.take n).map (· c) ++ List.replicate (n - frames.length) silence

/-- What the callback relies on. -/
structure RingApi.Lawful {ρ α : Type*} (R : RingApi ρ α) (silence : α) : Prop where
  /-- What does not fit is dropped, newest first. -/
  write : ∀ r frames,
    R.waiting (R.write r frames) =
      R.waiting r ++ frames.take (R.room r - (R.waiting r).length)
  read : ∀ r rows n, R.waiting (R.readPlanar r rows n).1 = (R.waiting r).drop n
  planes : ∀ r rows n, ∀ c < rows,
    (R.readPlanar r rows n).2 c = ringPlane silence (R.waiting r) n c
  /-- The oldest go, down to so many. -/
  trim : ∀ r keep, R.waiting (R.trim r keep) = (R.waiting r).drop ((R.waiting r).length - keep)

/-! ### The callback -/

/-- `REAC_MAX_QUANTUM`. -/
def reacMaxQuantum : Nat := 8192

/-- One of `datas`: its size in bytes, and what is at its pointer when there is one. -/
structure CapturePlane (α : Type*) where
  maxsize : Nat
  data : Option (List α)

/-- A buffer, whose first plane decides its size. -/
structure CaptureBuffer (α : Type*) where
  requested : Nat
  first : CapturePlane α
  others : List (CapturePlane α)

def CaptureBuffer.datas {α : Type*} (b : CaptureBuffer α) : List (CapturePlane α) :=
  b.first :: b.others

/-- How many frames the callback takes. -/
def CaptureBuffer.nframes {α : Type*} (b : CaptureBuffer α) : Nat :=
  let cap := b.first.maxsize / 4
  let nframes := if b.requested ≠ 0 then b.requested % UInt32.size else cap
  min (min nframes cap) reacMaxQuantum

/-- What a callback finds. -/
structure CaptureIn (α : Type*) where
  rateReconnecting : Bool
  /-- What a dequeue gives. -/
  buffer : Option (CaptureBuffer α)

inductive CaptureOut (α : Type*) where
  /-- The feeder's frames that found room. -/
  | wrote (frames : List (Nat → α))
  | idle
  /-- The buffer is queued as it was. -/
  | back
  /-- The buffer is queued with so many frames: what each plane shows. -/
  | filled (nframes : Nat) (shown : List (Option (List α)))

section
variable {ρ α : Type*} (R : RingApi ρ α) (channels : Nat)

/-- A plane of the node's channels is there. -/
def CaptureBuffer.gotPorts (b : CaptureBuffer α) : Bool :=
  (b.datas.take channels).any fun p => p.data.isSome

/-- What a queued plane shows: the channel read into it, or what was there before. -/
def shownPlane (nframes : Nat) (dst : Nat → List α) (p : CapturePlane α) (c : Nat) :
    Option (List α) :=
  p.data.map fun old => if c < channels then dst c else old.take nframes

def captureProcess (r : ρ) (p : CaptureIn α) : ρ × CaptureOut α :=
  if p.rateReconnecting then (r, .idle)
  else match p.buffer with
    | none => (r, .idle)
    | some b =>
        if !b.gotPorts channels then (r, .back)
        else
          let read := R.readPlanar (R.trim r (b.nframes * 4)) channels b.nframes
          (read.1, .filled b.nframes (b.datas.mapIdx fun c p =>
            shownPlane channels b.nframes read.2 p c))

inductive CaptureEvent (α : Type*) where
  /-- The feeder writes. -/
  | wire (frames : List (Nat → α))
  | process (p : CaptureIn α)

def captureMachine : StepMachine ρ (CaptureEvent α) (CaptureOut α) where
  step r
    | .wire frames =>
        (R.write r frames, .wrote (frames.take (R.room r - (R.waiting r).length)))
    | .process p => captureProcess R channels r p

/-- The frames a run got into the ring. -/
def accepted : List (CaptureOut α) → List (Nat → α)
  | [] => []
  | .wrote frames :: rest => frames ++ accepted rest
  | _ :: rest => accepted rest

/-- The quanta a run filled. -/
def quanta : List (CaptureOut α) → List (Nat × List (Option (List α)))
  | [] => []
  | .filled nframes shown :: rest => (nframes, shown) :: quanta rest
  | _ :: rest => quanta rest

end

/-! ### A ring -/

/-- A ring of so many frames, as a list of what waits. -/
def listRing {α : Type*} (silence : α) (room : Nat) : RingApi (List (Nat → α)) α where
  waiting frames := frames
  room _ := room
  write waiting frames := waiting ++ frames.take (room - waiting.length)
  readPlanar waiting _ n := (waiting.drop n, ringPlane silence waiting n)
  trim waiting keep := waiting.drop (waiting.length - keep)

end ReacPw
