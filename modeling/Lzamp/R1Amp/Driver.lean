import Lzamp.Mailmsg.Endpoint

namespace Lzamp.R1Amp
open Mailmsg

abbrev eio : Int := 5
abbrev eagain : Int := 11
abbrev enomem : Int := 12
abbrev efault : Int := 14
abbrev ebusy : Int := 16
abbrev einval : Int := 22
abbrev efbig : Int := 27
abbrev enospc : Int := 28
abbrev espipe : Int := 29
abbrev enodata : Int := 61
abbrev enolink : Int := 67
abbrev eproto : Int := 71
abbrev ebadmsg : Int := 74
abbrev eopnotsupp : Int := 95
abbrev eshutdown : Int := 108
abbrev etimedout : Int := 110
abbrev ealready : Int := 114
abbrev einprogress : Int := 115
abbrev estale : Int := 116
abbrev ecanceled : Int := 125
abbrev erestartsys : Int := 512
abbrev maxErrno : Int := 4095

abbrev affinityOn : Int := 0
abbrev affinityOff : Int := 1
abbrev affinityOnPending : Int := 2

/-- `time_after_eq`: the sign of the wrapped difference. -/
def timeAfterEq (a b : U64) : Bool := decide (0 ≤ (a - b).toInt)

def timeBefore (a b : U64) : Bool := decide ((a - b).toInt < 0)

theorem timeBefore_eq_not (a b : U64) : timeBefore a b = !timeAfterEq a b := by
  simp only [timeBefore, timeAfterEq, ← decide_not, not_le]

/-- Less than half the range apart, the wrapped comparison is the order of the absolute times. -/
theorem timeBefore_ofNat {a b : ℕ} (hab : a < b + 2 ^ 63) (hba : b ≤ a + 2 ^ 63) :
    timeBefore (BitVec.ofNat 64 a) (BitVec.ofNat 64 b) = decide (a < b) := by
  have hsub : (BitVec.ofNat 64 a - BitVec.ofNat 64 b).toInt = ((a : Int) - b).bmod (2 ^ 64) := by
    rw [BitVec.toInt_sub, BitVec.toInt_ofNat', BitVec.toInt_ofNat', Int.bmod_sub_bmod,
      Int.sub_bmod_bmod]
  unfold timeBefore
  rw [hsub, decide_eq_decide, Int.bmod_eq_of_le (by omega) (by omega)]
  omega

inductive SessionState where
  | unarmed
  | starting
  | startTimeout
  | active
  | stopping
  | stopTimeout
  | offline
deriving DecidableEq

/-- What the device tree and the platform fix at probe. -/
structure Config where
  imageSize : U32
  /-- `msecs_to_jiffies(R1_AMP_LIFECYCLE_TIMEOUT_MS)`. -/
  lifecycleTimeout : U64
  hasAffinityInfo : Bool
  hasCpuOn : Bool

/-- The fields that only the lifecycle operations write. -/
@[ext] structure Lifecycle where
  imageWritten : U64
  affinityState : Int
  cpuOnRet : Int
  affinityQueried : Bool
  affinitySeenOn : Bool
  cpuOnAttempted : Bool
  mailmsgState : SessionState
  affinityMonitorCount : U32
  affinityMonitorErrorCount : U32
  sessionGeneration : U32
  peerGeneration : U32
  sessionResult : Int
  stopRequestSequence : U32
  stopReplyType : U32
  stopResult : Int
  stopNotifyResult : Int
  lifecycleDeadline : U64
  nextSequence : U64
deriving DecidableEq

@[ext] structure MboxChannel where
  txMsgCmd : U32
  txMsgData : U32
  rxCount : U32
  rxLastCmd : U32
  rxLastData : U32
  txRet : Int
  txCount : U32
  notifyResult : Int
  notifySentCount : U32
  notifyCoalescedCount : U32
  notifyFailedCount : U32
deriving DecidableEq

/-- The hardware registers and the notification bookkeeping around them. -/
@[ext] structure Mbox where
  a2b : Doorbells
  channel : Priority → MboxChannel
  notifyInjectPriority : U32
  notifyInjectErrno : Int
  notifyInjectRemaining : U32
  lifecycleNotifyBypass : Bool
  mailmsgLastNotifyResult : Int
deriving DecidableEq

@[ext] structure UserChannel where
  rxGeneration : U32
  readerOpenCount : Int
deriving DecidableEq

/-- The driver with the memory it shares with CPU3: `carveout` is the image area, `shared` the
control page from the MailMsg header on.  Work items may run at any time here, whether or not they
were queued, so queueing and cancelling them leaves no trace.  `mailmsg_user_removing` is never set
by the driver and is left out. -/
structure Driver where
  life : Lifecycle
  mbox : Mbox
  shared : Shared
  endpoint : Endpoint
  user : Priority → UserChannel
  mailmsgUserOpenCount : Int
  carveout : ℕ → U8

def mailmsgDataGateLocked (d : Driver) : Int :=
  match d.life.mailmsgState with
  | .active => 0
  | .starting => -eagain
  | .startTimeout => -etimedout
  | .stopping => -eshutdown
  | .stopTimeout => -etimedout
  | .offline => -enolink
  | .unarmed => -enolink

def ringResultToErrno (result : Int) : Int :=
  if result = ringOk then 0
  else if result = ringEmpty then -enodata
  else if result = ringFull then -enospc
  else if result = ringIncomplete then -eagain
  else if result = ringBadCrc then -ebadmsg
  else if result = ringInvalid then -eproto
  else if result = endpointInvalid then -einval
  else if result = endpointProtocolMismatch then -eproto
  else if result = endpointStaleSession ∨ result = endpointStaleFrame then -estale
  else -eio

/-- Wakes every priority's readers. -/
def wakeAll (user : Priority → UserChannel) : Priority → UserChannel := fun p =>
  { user p with rxGeneration := (user p).rxGeneration + 1 }

def mailmsgMarkOfflineLocked (d : Driver) : Driver :=
  match d.life.mailmsgState with
  | .starting | .startTimeout | .active | .stopping | .stopTimeout =>
    { d with life := { d.life with mailmsgState := .offline }, user := wakeAll d.user }
  | .unarmed | .offline => d

/-- The bookkeeping of one `psci_ops.affinity_info` call that returned `state`. -/
def sampleAffinity (state : Int) (d : Driver) : Driver :=
  { d with life := { d.life with
    affinityState := state
    affinityQueried := true
    affinitySeenOn := d.life.affinitySeenOn || state == affinityOn || state == affinityOnPending } }

def refreshAffinityLocked (state : Int) (d : Driver) : Driver :=
  let d := sampleAffinity state d
  -- CPU_ON may return before AFFINITY_INFO leaves OFF, so OFF is final only once ON was seen
  if d.life.cpuOnRet = 0 ∧ d.life.affinitySeenOn ∧ state = affinityOff then
    mailmsgMarkOfflineLocked d
  else d

def mailmsgSetTimeoutLocked (d : Driver) : Driver :=
  let life := match d.life.mailmsgState with
    | .starting => { d.life with sessionResult := -etimedout, mailmsgState := .startTimeout }
    | .stopping => { d.life with stopResult := -etimedout, mailmsgState := .stopTimeout }
    | _ => d.life
  { d with life := life, user := wakeAll d.user }

def mailmsgDoorbell : U32 := 0xa2b10000
def rawDoorbell : U32 := 0xa2b00000

def Mbox.modifyChannel (m : Mbox) (p : Priority) (f : MboxChannel → MboxChannel) : Mbox :=
  { m with channel := Function.update m.channel p (f (m.channel p)) }

def mboxDirectSendLocked (m : Mbox) (p : Priority) (command value : U32) : Int × Mbox :=
  if hasBit m.a2b.status p then
    (-ebusy, m.modifyChannel p fun c => { c with txRet := -ebusy })
  else
    let m := m.modifyChannel p fun c => { c with
      txMsgCmd := command, txMsgData := value, txRet := 0, txCount := c.txCount + 1 }
    (0, { m with a2b := m.a2b.ring p command value })

def mailmsgNotifyLocked (m : Mbox) (p : Priority) : Int × Mbox :=
  if !m.lifecycleNotifyBypass ∧ m.notifyInjectRemaining ≠ 0 ∧
      m.notifyInjectPriority = channelWord p then
    let result := m.notifyInjectErrno
    let m := m.modifyChannel p fun c => { c with
      txRet := result, notifyFailedCount := c.notifyFailedCount + 1, notifyResult := result }
    (result, { m with notifyInjectRemaining := m.notifyInjectRemaining - 1,
                      mailmsgLastNotifyResult := result })
  else
    let (sent, m) := mboxDirectSendLocked m p (mailmsgDoorbell ||| channelWord p) (channelWord p)
    let result := if sent = -ebusy then notifyCoalesced else if sent < 0 then sent else notifySent
    let m := m.modifyChannel p fun c =>
      let c := if sent = -ebusy then
          { c with notifyCoalescedCount := c.notifyCoalescedCount + 1 }
        else if sent < 0 then { c with notifyFailedCount := c.notifyFailedCount + 1 }
        else { c with notifySentCount := c.notifySentCount + 1 }
      { c with notifyResult := result }
    (result, { m with mailmsgLastNotifyResult := result })

end Lzamp.R1Amp
