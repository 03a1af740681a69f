import Lzamp.Lib.Seqlock
import Lzamp.Mailmsg.Protocol

namespace Lzamp.System
open Mailmsg Lib Lib.Seqlock

def workerObservationMagic : U32 := 0x4d455654
def txFullObservationMagic : U32 := 0x4d46554c

inductive WorkerField where
  | irqCount
  | wakeCount
  | drainCount
  | messageCount
  | emptyWakeCount
  | lastPending
  | pendingNow
  | lastPriority
deriving DecidableEq

inductive TxFullField where
  | fullCount
  | lastPriority
  | lastType
  | lastResult
deriving DecidableEq

def workerLine : Layout WorkerField where
  magic := workerObservationMagic
  stores := [.irqCount, .wakeCount, .drainCount, .messageCount, .emptyWakeCount, .lastPending,
    .pendingNow, .lastPriority]
  loads := [.irqCount, .wakeCount, .drainCount, .messageCount, .emptyWakeCount, .lastPending,
    .pendingNow, .lastPriority]
  mem_stores f := by cases f <;> decide
  mem_loads f := by cases f <;> decide

def txFullLine : Layout TxFullField where
  magic := txFullObservationMagic
  stores := [.fullCount, .lastPriority, .lastType, .lastResult]
  loads := [.fullCount, .lastPriority, .lastType, .lastResult]
  mem_stores f := by cases f <;> decide
  mem_loads f := by cases f <;> decide

/-- What the worker publishes besides its two arguments.  The interrupt handler changes the first
and the last of these until they are stored. -/
structure WorkerCounters where
  irqCount : U32
  workerWakeCount : U32
  workerDrainCount : U32
  workerMessageCount : U32
  workerEmptyWakeCount : U32
  pendingPriorities : U32

def publishWorkerObservation (c : WorkerCounters) (lastPending lastPriority : U32) :
    Seqlock.Act WorkerField :=
  .publish fun
    | .irqCount => c.irqCount
    | .wakeCount => c.workerWakeCount
    | .drainCount => c.workerDrainCount
    | .messageCount => c.workerMessageCount
    | .emptyWakeCount => c.workerEmptyWakeCount
    | .lastPending => lastPending
    | .pendingNow => c.pendingPriorities
    | .lastPriority => lastPriority

def publishTxFullObservation (txFullCount priority type : U32) (result : Int) :
    Seqlock.Act TxFullField :=
  .publish fun
    | .fullCount => txFullCount
    | .lastPriority => priority
    | .lastType => type
    | .lastResult => BitVec.ofInt 32 result

/-- The two lines that `status_show` reads.  Publications of one line do not overlap: the main
thread publishes both before it creates the worker, the worker line then belongs to the worker, and
the TX-full line to whichever thread sends, which is the main thread only as long as the worker's
service returns early. -/
inductive Observation where
  | worker
  | txFull

def Observation.Field : Observation → Type
  | .worker => WorkerField
  | .txFull => TxFullField

instance (o : Observation) : DecidableEq o.Field :=
  match o with
  | .worker => inferInstanceAs (DecidableEq WorkerField)
  | .txFull => inferInstanceAs (DecidableEq TxFullField)

def Observation.layout : (o : Observation) → Layout o.Field
  | .worker => workerLine
  | .txFull => txFullLine

/-- The line when CPU3 starts: `start_store` has cleared the control page, and the counters of the
image are zero. -/
def Observation.boot (o : Observation) : Seqlock.State o.Field :=
  ⟨⟨0, 0, 0, fun _ => 0⟩, 0, none, [], .idle⟩

theorem Observation.boot_cleared (o : Observation) : o.boot.Cleared := ⟨rfl, rfl, rfl⟩

/-- A read of `status` that loads the words of a line while CPU3 publishes on it.  The line was
cleared before CPU3 started. -/
structure StatusShow (o : Observation) (before during : List (Seqlock.Act o.Field)) where
  start : Seqlock.State o.Field
  entry : Seqlock.State o.Field
  exit : Seqlock.State o.Field
  got : Snapshot o.Field
  cleared : start.Cleared
  earlier : Trace o.layout.Step start before entry
  idle : entry.reader = .idle
  reading : Trace o.layout.Step entry during exit
  done : exit.reader = .done got

namespace StatusShow

variable {o : Observation} {before during : List (Seqlock.Act o.Field)}

def valid (x : StatusShow o before during) : Bool := o.layout.valid x.got

/-- The publications that were completed while the words were loaded. -/
def completed (x : StatusShow o before during) : ℕ :=
  x.exit.published.length - x.entry.published.length

theorem exists_of_run
    (h : ((before.foldlM o.layout.step o.boot).any fun entry =>
      (entry.reader matches .idle) && (during.foldlM o.layout.step entry).any fun exit =>
        match exit.reader with
        | .done got => o.layout.valid got && exit.published.length ≤ entry.published.length
        | _ => false) = true) :
    ∃ x : StatusShow o before during, x.completed = 0 ∧ x.valid = true := by
  obtain ⟨entry, hearlier, hentry⟩ := Trace.exists_of_foldlM _ _ _ _ h
  obtain ⟨hidle, hrest⟩ := Bool.and_eq_true_iff.mp hentry
  obtain ⟨exit, hreading, hexit⟩ := Trace.exists_of_foldlM _ _ _ _ hrest
  have hentryIdle : entry.reader = .idle := by
    cases hreader : entry.reader with
    | idle => rfl
    | loading next got => simp [hreader] at hidle
    | done got => simp [hreader] at hidle
  cases hreader : exit.reader with
  | idle => simp [hreader] at hexit
  | loading next got => simp [hreader] at hexit
  | done got =>
    simp only [hreader, Bool.and_eq_true, decide_eq_true_eq] at hexit
    exact ⟨⟨o.boot, entry, exit, got, o.boot_cleared, hearlier, hentryIdle, hreading, hreader⟩,
      Nat.sub_eq_zero_of_le hexit.2, hexit.1⟩

end StatusShow

/-- Every field of a valid snapshot was stored by one publication, the one whose commit number is
reported. -/
theorem status_show_untorn (o : Observation) (before during : List (Seqlock.Act o.Field))
    (x : StatusShow o before during) (hfew : x.completed < 2 ^ 32 - 1) (hvalid : x.valid = true) :
    ∃ p ∈ x.exit.published, .publish p.values ∈ before ++ during ∧ p.commit = x.got.second ∧
      x.got.field = p.values := by
  have hbound : x.exit.published.length < x.entry.published.length + (2 ^ 32 - 1) := by
    unfold StatusShow.completed at hfew
    omega
  obtain ⟨p, hp, hcommit, hfield⟩ :=
    accepted_of_trace x.cleared x.earlier x.idle x.reading hbound x.done hvalid
  have hasked := (publish_mem_of_trace x.cleared (x.earlier.append x.reading)).1 p hp
  exact ⟨p, hp, hasked, hcommit, hfield⟩

theorem status_show_untorn_published :
    (∃ x : StatusShow .worker
        (publishWorkerObservation ⟨3, 2, 2, 5, 0, 0⟩ 2 1 :: List.replicate 12 .store)
        (.read :: List.replicate 11 .load ++
          [publishWorkerObservation ⟨4, 3, 2, 5, 1, 0⟩ 0 4, .store, .load]),
      x.completed < 2 ^ 32 - 1 ∧ x.valid = true ∧ ∃ p ∈ x.exit.published,
        p.commit = x.got.second ∧ x.got.field = p.values) ∧
    ∃ x : StatusShow .txFull
        (publishTxFullObservation 0 4 msgNop ringOk :: List.replicate 8 .store)
        (.read :: List.replicate 7 .load ++
          [publishTxFullObservation 1 1 msgAck ringFull, .store, .load]),
      x.completed < 2 ^ 32 - 1 ∧ x.valid = true ∧ ∃ p ∈ x.exit.published,
        p.commit = x.got.second ∧ x.got.field = p.values := by
  constructor
  · refine Exists.imp (fun x hx => ?_) (StatusShow.exists_of_run (by decide +kernel))
    have hfew : x.completed < 2 ^ 32 - 1 := by omega
    obtain ⟨p, hp, -, hsnapshot⟩ := status_show_untorn _ _ _ x hfew hx.2
    exact ⟨hfew, hx.2, p, hp, hsnapshot⟩
  · refine Exists.imp (fun x hx => ?_) (StatusShow.exists_of_run (by decide +kernel))
    have hfew : x.completed < 2 ^ 32 - 1 := by omega
    obtain ⟨p, hp, -, hsnapshot⟩ := status_show_untorn _ _ _ x hfew hx.2
    exact ⟨hfew, hx.2, p, hp, hsnapshot⟩

end Lzamp.System
