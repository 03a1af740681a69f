import Lzamp.Lib.Unwind
import Lzamp.R1Amp.Geometry
import Lzamp.R1Amp.World

namespace Lzamp.R1Amp
open Mailmsg Lib

/-- The attributes that `device_create_file` adds. -/
inductive Attribute where
  | status
  | mailmsgStats
  | affinityState
  | start
  | rearm
  | ping
  | response
  | doorbell
  | mailmsgPing
  | mailmsgStop
  | mailmsgCrcInject
  | mailmsgNotifyInject
  | mailmsgQueuePush
  | mailmsgResponse
deriving DecidableEq

/-- What the driver has to give back itself; what `devm_` functions hand out is released by the
driver core. -/
inductive Resource where
  /-- A mailbox channel. -/
  | channel (index : Fin 4)
  /-- The attribute through which the image is written. -/
  | image
  | attribute (a : Attribute)
  /-- One of `/dev/mailmsg-p0` to `/dev/mailmsg-p3`. -/
  | userDevice (p : Priority)
deriving DecidableEq

def Resource.isChannel : Resource → Bool
  | .channel _ => true
  | .image | .attribute _ | .userDevice _ => false

def Resource.isUserDevice : Resource → Bool
  | .userDevice _ => true
  | .channel _ | .image | .attribute _ => false

def freeMboxChannels (held : List Resource) : List Resource := held.filter fun r => !r.isChannel

def mboxChannels : List Resource := [.channel 0, .channel 1, .channel 2, .channel 3]

def requestMboxChannels (acquire : Resource → Int) (held : List Resource) : Int × List Resource :=
  acquireAll acquire (fun _ => freeMboxChannels) held mboxChannels

def unregisterMailmsgUser (held : List Resource) : List Resource :=
  held.filter fun r => !r.isUserDevice

def userDevices : List Resource := [.userDevice 0, .userDevice 1, .userDevice 2, .userDevice 3]

def registerMailmsgUser (acquire : Resource → Int) (held : List Resource) : Int × List Resource :=
  acquireAll acquire (fun _ => unregisterMailmsgUser) held userDevices

/-- In the order of the calls. -/
def attributes : List Resource :=
  [.attribute .status, .attribute .mailmsgStats, .attribute .affinityState, .attribute .start,
    .attribute .rearm, .attribute .ping, .attribute .response, .attribute .doorbell,
    .attribute .mailmsgPing, .attribute .mailmsgStop, .attribute .mailmsgCrcInject,
    .attribute .mailmsgNotifyInject, .attribute .mailmsgQueuePush, .attribute .mailmsgResponse]

/-- The labels from top to bottom, each named after what it removes; `err_image` follows. -/
def labels : List Attribute :=
  [.mailmsgResponse, .mailmsgQueuePush, .mailmsgNotifyInject, .mailmsgCrcInject, .mailmsgStop,
    .mailmsgPing, .doorbell, .response, .ping, .rearm, .start, .affinityState, .mailmsgStats,
    .status]

/-- Where the failure of an attribute jumps to; `none` is `err_image`. -/
def Attribute.errorLabel : Attribute → Option Attribute
  | .status => none
  | .mailmsgStats => some .status
  | .affinityState => some .mailmsgStats
  | .start => some .affinityState
  | .rearm => some .start
  | .ping => some .rearm
  | .response => some .ping
  | .doorbell => some .response
  | .mailmsgPing => some .doorbell
  | .mailmsgStop => some .mailmsgPing
  | .mailmsgCrcInject => some .mailmsgStop
  | .mailmsgNotifyInject => some .mailmsgCrcInject
  | .mailmsgQueuePush => some .mailmsgNotifyInject
  | .mailmsgResponse => some .mailmsgQueuePush

/-- From a label on, the code falls through to the end. -/
def goto (label : Option Attribute) (held : List Resource) : List Resource :=
  let reached := match label with
    | some a => labels.dropWhile (· ≠ a)
    | none => []
  let held := reached.foldl (fun held a => held.erase (.attribute a)) held
  freeMboxChannels (held.erase .image)

def Resource.errorPath : Resource → List Resource → List Resource
  | .attribute a => goto a.errorLabel
  | .channel _ | .image | .userDevice _ => id

abbrev a55Core3Mpidr : U64 := 0x300

structure DeviceTree where
  targetMpidr : Option U64
  zephyrEntry : Option U64
  zephyrImageSize : Option U32
  statusOffset : Option U32
  hasMemoryRegion : Bool
  /-- The base and the size of the reserved memory. -/
  reserved : Option (U64 × U64)

/-- What the kernel answers; an `Int` is 0 or an error number. -/
structure Kernel where
  allocates : Bool
  memremap : Int
  mapMboxRegs : Int
  acquire : Resource → Int

abbrev enodev : Int := 19

/-- What comes before the first resource. -/
def prepare (dt : DeviceTree) (k : Kernel) : Int :=
  match dt.targetMpidr, dt.zephyrEntry, dt.zephyrImageSize, dt.statusOffset with
  | some mpidr, some entry, some imageSize, some statusOffset =>
    if mpidr ≠ a55Core3Mpidr then -einval
    else if !dt.hasMemoryRegion then -einval
    else
      match dt.reserved with
      | none => -enodev
      | some (base, size) =>
        if Geometry.check ⟨imageSize, statusOffset, entry, base, size⟩ ≠ 0 then -einval
        else if !k.allocates then -enomem
        else if k.memremap ≠ 0 then k.memremap
        else k.mapMboxRegs
  | _, _, _, _ => -einval

/-- `r1_amp_cpu_on_probe`: what it returns and what is held then. -/
def probe (dt : DeviceTree) (k : Kernel) : Int × List Resource :=
  let ret := prepare dt k
  if ret ≠ 0 then (ret, [])
  else
    let (ret, held) := requestMboxChannels k.acquire []
    if ret ≠ 0 then (ret, held)
    else if k.acquire .image ≠ 0 then (k.acquire .image, held)
    else
      let (ret, held) := acquireAll k.acquire Resource.errorPath (held ++ [.image]) attributes
      if ret ≠ 0 then (ret, held)
      else
        let (ret, held) := registerMailmsgUser k.acquire held
        if ret ≠ 0 then (ret, goto (some .mailmsgResponse) held) else (0, held)

def resources : List Resource := mboxChannels ++ [.image] ++ attributes ++ userDevices

/-- The image attribute is the first thing that is refused. -/
structure ImageRefused (dt : DeviceTree) (k : Kernel) : Prop where
  prepared : prepare dt k = 0
  channels : ∀ r ∈ mboxChannels, k.acquire r = 0
  refused : k.acquire .image ≠ 0

theorem requestMboxChannels_cases (acquire : Resource → Int) :
    ((∀ r ∈ mboxChannels, acquire r = 0) ∧ requestMboxChannels acquire [] = (0, mboxChannels)) ∨
    ((∃ r ∈ mboxChannels, acquire r ≠ 0) ∧ (requestMboxChannels acquire []).1 ≠ 0 ∧
      (requestMboxChannels acquire []).2 = []) := by
  apply acquireAll_undone
  have hundo : ∀ i : Fin 4, freeMboxChannels ([] ++ mboxChannels.take i) = [] := by decide
  exact fun i hi => hundo ⟨i, hi⟩

theorem attributes_cases (acquire : Resource → Int) :
    ((∀ r ∈ attributes, acquire r = 0) ∧
      acquireAll acquire Resource.errorPath (mboxChannels ++ [.image]) attributes =
        (0, mboxChannels ++ [.image] ++ attributes)) ∨
    ((∃ r ∈ attributes, acquire r ≠ 0) ∧
      (acquireAll acquire Resource.errorPath (mboxChannels ++ [.image]) attributes).1 ≠ 0 ∧
      (acquireAll acquire Resource.errorPath (mboxChannels ++ [.image]) attributes).2 = []) := by
  apply acquireAll_undone
  have hundo : ∀ i : Fin 14, Resource.errorPath (attributes.get i)
      (mboxChannels ++ [.image] ++ attributes.take i) = [] := by decide
  exact fun i hi => hundo ⟨i, hi⟩

theorem registerMailmsgUser_cases (acquire : Resource → Int) :
    ((∀ r ∈ userDevices, acquire r = 0) ∧
      registerMailmsgUser acquire (mboxChannels ++ [.image] ++ attributes) = (0, resources)) ∨
    ((∃ r ∈ userDevices, acquire r ≠ 0) ∧
      (registerMailmsgUser acquire (mboxChannels ++ [.image] ++ attributes)).1 ≠ 0 ∧
      (registerMailmsgUser acquire (mboxChannels ++ [.image] ++ attributes)).2 =
        mboxChannels ++ [.image] ++ attributes) := by
  apply acquireAll_undone
  have hundo : ∀ i : Fin 4, unregisterMailmsgUser (mboxChannels ++ [.image] ++ attributes ++
      userDevices.take i) = mboxChannels ++ [.image] ++ attributes := by decide
  exact fun i hi => hundo ⟨i, hi⟩

theorem goto_mailmsgResponse :
    goto (some .mailmsgResponse) (mboxChannels ++ [.image] ++ attributes) = [] := by decide

/-- A probe succeeds exactly if the device tree is accepted, memory is allocated and mapped and
nothing is refused, and then holds everything.  If it fails it holds nothing, unless it was the
image attribute that was refused: that path returns without giving back the four mailbox
channels. -/
theorem probe_leaves (dt : DeviceTree) (k : Kernel) :
    ((probe dt k).1 = 0 ↔ prepare dt k = 0 ∧ ∀ r ∈ resources, k.acquire r = 0) ∧
    ((probe dt k).1 = 0 → (probe dt k).2 = resources) ∧
    ((probe dt k).1 ≠ 0 → ¬ ImageRefused dt k → (probe dt k).2 = []) ∧
    (ImageRefused dt k → probe dt k = (k.acquire .image, mboxChannels)) := by
  have hmem {r : Resource} (h : r ∈ mboxChannels ∨ r = .image ∨ r ∈ attributes ∨ r ∈ userDevices) :
      r ∈ resources := by
    simp only [resources, List.mem_append, List.mem_singleton]
    tauto
  -- a failure of some step: nothing is held, and it was not the image
  have hfailed {ret : Int} (hret : ret ≠ 0) (heq : probe dt k = (ret, []))
      (hbad : ¬ (prepare dt k = 0 ∧ ∀ r ∈ resources, k.acquire r = 0))
      (himage : ¬ ImageRefused dt k) :
      ((probe dt k).1 = 0 ↔ prepare dt k = 0 ∧ ∀ r ∈ resources, k.acquire r = 0) ∧
      ((probe dt k).1 = 0 → (probe dt k).2 = resources) ∧
      ((probe dt k).1 ≠ 0 → ¬ ImageRefused dt k → (probe dt k).2 = []) ∧
      (ImageRefused dt k → probe dt k = (k.acquire .image, mboxChannels)) := by
    rw [heq]
    exact ⟨iff_of_false hret hbad, fun h => absurd h hret, fun _ _ => rfl,
      fun h => absurd h himage⟩
  -- the cases follow the steps of the probe, each failing into its own unwinding label
  by_cases hprepare : prepare dt k = 0
  · rcases requestMboxChannels_cases k.acquire with ⟨hchannels, hrequest⟩ | ⟨⟨r, hr, hne⟩, h1, h2⟩
    · by_cases himage : k.acquire .image = 0
      · have hnot : ¬ ImageRefused dt k := fun h => h.refused himage
        rcases attributes_cases k.acquire with ⟨hattributes, hcreate⟩ | ⟨⟨r, hr, hne⟩, h1, h2⟩
        · rcases registerMailmsgUser_cases k.acquire with
            ⟨husers, hregister⟩ | ⟨⟨r, hr, hne⟩, h1, h2⟩
          · have heq : probe dt k = (0, resources) := by
              simp only [probe, hprepare, hrequest, himage, hcreate, hregister, ne_eq,
                not_true_eq_false, if_false]
            rw [heq]
            refine ⟨iff_of_true rfl ⟨hprepare, fun r hr => ?_⟩, fun _ => rfl,
              fun h => absurd rfl h, fun h => absurd h hnot⟩
            simp only [resources, List.mem_append, List.mem_singleton] at hr
            rcases hr with ((hr | rfl) | hr) | hr
            · exact hchannels r hr
            · exact himage
            · exact hattributes r hr
            · exact husers r hr
          · refine hfailed h1 ?_ (fun h => hne (h.2 r (hmem (.inr (.inr (.inr hr)))))) hnot
            simp only [probe, hprepare, hrequest, himage, hcreate, h1, h2, goto_mailmsgResponse, ne_eq,
              not_true_eq_false, not_false_eq_true, if_true, if_false]
        · refine hfailed h1 ?_ (fun h => hne (h.2 r (hmem (.inr (.inr (.inl hr)))))) hnot
          simp only [probe, hprepare, hrequest, himage, h1, h2, ne_eq, not_true_eq_false,
            not_false_eq_true, if_true, if_false]
      · have hrefused : ImageRefused dt k := ⟨hprepare, hchannels, himage⟩
        have heq : probe dt k = (k.acquire .image, mboxChannels) := by
          simp only [probe, hprepare, hrequest, himage, ne_eq, not_true_eq_false,
            not_false_eq_true, if_true, if_false]
        rw [heq]
        exact ⟨iff_of_false himage fun h => himage (h.2 .image (hmem (.inr (.inl rfl)))),
          fun h => absurd h himage, fun _ h => absurd hrefused h, fun _ => rfl⟩
    · refine hfailed h1 ?_ (fun h => hne (h.2 r (hmem (.inl hr)))) fun h => hne (h.channels r hr)
      simp only [probe, hprepare, h1, h2, ne_eq, not_true_eq_false,
        not_false_eq_true, if_true, if_false]
  · refine hfailed hprepare ?_ (fun h => hprepare h.1) fun h => hprepare h.prepared
    simp only [probe, hprepare, ne_eq, not_false_eq_true, if_true]

end Lzamp.R1Amp
