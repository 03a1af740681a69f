import Lzamp.R1Amp.Lifecycle

namespace Lzamp.R1Amp
open Mailmsg

/-- `sizeof(struct mailmsg_message)`: six words and the payload. -/
abbrev messageBytes : ℕ := 6 * 4 + 28

/-- `sizeof(struct mailmsg_ring)`: the two indices and the slots. -/
abbrev ringBytes : ℕ := 2 * 4 + 8 * messageBytes

/-- `sizeof(struct mailmsg_shared)`: the header and the rings of both directions. -/
abbrev sharedBytes : ℕ := 3 * 4 + (4 + 4) * ringBytes

abbrev mailmsgOff : ℕ := 0x200

abbrev stateSize : ℕ := mailmsgOff + sharedBytes

theorem ringBytes_eq : ringBytes = 424 := rfl

theorem stateSize_eq : stateSize = 3916 := rfl

/-- The image and the control page of the device tree, and the region they are put in. -/
structure Geometry where
  imageSize : U32
  statusOffset : U32
  entry : U64
  base : U64
  size : U64

/-- The geometry test of `r1_amp_cpu_on_probe`. -/
def Geometry.check (g : Geometry) : Int :=
  if g.imageSize = 0 ∨ g.statusOffset < g.imageSize ∨
      g.size - BitVec.ofNat 64 stateSize < g.statusOffset.setWidth 64 ∨
      g.entry < g.base ∨ g.base + g.size ≤ g.entry then -einval
  else 0

structure Extent where
  start : ℕ
  length : ℕ

def Extent.Within (e : Extent) (start stop : ℕ) : Prop :=
  start ≤ e.start ∧ e.start + e.length ≤ stop

inductive RingField
  | producer
  | consumer
  | slot (index : Fin 8)

/-- From the start of the ring. -/
def RingField.extent : RingField → Extent
  | .producer => ⟨0, 4⟩
  | .consumer => ⟨4, 4⟩
  | .slot index => ⟨2 * 4 + index.val * messageBytes, messageBytes⟩

/-- The ways into the control page. -/
inductive ControlAccess
  /-- The `memset` of `start_store`. -/
  | clear
  /-- One of the lines in front of the MailMsg area. -/
  | line (index : Fin 8)
  /-- `magic`, `version` and `generation`. -/
  | header
  | linuxToCpu3 (p : Priority) (field : RingField)
  | cpu3ToLinux (p : Priority) (field : RingField)

def Geometry.statusPtr (g : Geometry) : ℕ := g.statusOffset.toNat

def Geometry.protocolPtr (g : Geometry) (offset : ℕ) : ℕ := g.statusPtr + offset

def Geometry.sharedPtr (g : Geometry) : ℕ := g.protocolPtr mailmsgOff

def ControlAccess.extent (g : Geometry) : ControlAccess → Extent
  | .clear => ⟨g.statusPtr, stateSize⟩
  | .line index => ⟨g.protocolPtr (64 * index.val), 64⟩
  | .header => ⟨g.sharedPtr, 3 * 4⟩
  | .linuxToCpu3 p field =>
    ⟨g.sharedPtr + 3 * 4 + p.val * ringBytes + field.extent.start, field.extent.length⟩
  | .cpu3ToLinux p field =>
    ⟨g.sharedPtr + 3 * 4 + (4 + p.val) * ringBytes + field.extent.start, field.extent.length⟩

theorem RingField.extent_within (field : RingField) : field.extent.Within 0 ringBytes := by
  refine ⟨Nat.zero_le _, ?_⟩
  cases field with
  | producer => decide
  | consumer => decide
  | slot index =>
    dsimp only [extent, messageBytes, ringBytes]
    omega

theorem ControlAccess.extent_within (g : Geometry) (access : ControlAccess) :
    (access.extent g).Within g.statusOffset.toNat (g.statusOffset.toNat + stateSize) := by
  unfold Extent.Within
  rw [stateSize_eq]
  cases access with
  | clear => exact ⟨le_rfl, le_rfl⟩
  | line index =>
    dsimp only [extent, Geometry.protocolPtr, Geometry.statusPtr]
    omega
  | header =>
    dsimp only [extent, Geometry.sharedPtr, Geometry.protocolPtr, Geometry.statusPtr, mailmsgOff]
    omega
  | linuxToCpu3 p field =>
    have hfield := field.extent_within.2
    dsimp only [extent, Geometry.sharedPtr, Geometry.protocolPtr, Geometry.statusPtr, mailmsgOff]
    rw [ringBytes_eq] at hfield ⊢
    omega
  | cpu3ToLinux p field =>
    have hfield := field.extent_within.2
    dsimp only [extent, Geometry.sharedPtr, Geometry.protocolPtr, Geometry.statusPtr, mailmsgOff]
    rw [ringBytes_eq] at hfield ⊢
    omega

theorem imageWrite_carveout {cfg : Config} {d : Driver} (off : U64) {buf : List U8}
    (hbuf : buf.length < 2 ^ 64) (hwritten : d.life.imageWritten ≤ cfg.imageSize.setWidth 64)
    {a : ℕ} (ha : cfg.imageSize.toNat ≤ a) :
    (imageWrite cfg off buf d).driver.carveout a = d.carveout a := by
  unfold imageWrite
  dsimp only
  split_ifs with hattempted hoff hcount
  · rfl
  · rfl
  · rfl
  · have hle := BitVec.le_def.mp (BitVec.not_lt.mp hcount)
    have hw := BitVec.le_def.mp hwritten
    obtain rfl := not_not.mp hoff
    rw [BitVec.toNat_sub_of_le hwritten, BitVec.toNat_ofNat, Nat.mod_eq_of_lt hbuf] at hle
    rw [BitVec.toNat_setWidth_of_le (by decide)] at hle hw
    exact if_neg (by omega)

/-- A layout in which nothing that the driver does reaches outside the region. -/
structure Geometry.Safe (g : Geometry) : Prop where
  disjoint : ∀ a, a < g.imageSize.toNat →
    ¬ (g.statusOffset.toNat ≤ a ∧ a < g.statusOffset.toNat + stateSize)
  image : g.imageSize.toNat ≤ g.size.toNat
  control : g.statusOffset.toNat + stateSize ≤ g.size.toNat
  entry : g.base.toNat ≤ g.entry.toNat ∧ g.entry.toNat < g.base.toNat + g.size.toNat
  imageWrite : ∀ (cfg : Config) (d : Driver) (off : U64) (buf : List U8),
    cfg.imageSize = g.imageSize → d.life.imageWritten ≤ cfg.imageSize.setWidth 64 →
    buf.length < 2 ^ 64 → ∀ a, g.size.toNat ≤ a →
      (R1Amp.imageWrite cfg off buf d).driver.carveout a = d.carveout a
  access : ∀ access : ControlAccess, (access.extent g).Within 0 g.size.toNat

theorem Geometry.of_check {g : Geometry} (h : g.check = 0) :
    g.imageSize.toNat ≤ g.statusOffset.toNat ∧
      g.statusOffset.toNat ≤ (g.size - BitVec.ofNat 64 stateSize).toNat ∧
      g.base.toNat ≤ g.entry.toNat ∧ g.entry.toNat < (g.base + g.size).toNat := by
  unfold check at h
  split_ifs at h with hbad
  · exact absurd h (by decide)
  · simp only [not_or] at hbad
    obtain ⟨-, himage, hstatus, hentry, hend⟩ := hbad
    have hle := BitVec.le_def.mp (BitVec.not_lt.mp hstatus)
    rw [BitVec.toNat_setWidth_of_le (by decide)] at hle
    exact ⟨BitVec.not_lt.mp himage, hle, BitVec.not_lt.mp hentry, BitVec.not_le.mp hend⟩

/-- The geometry test is right exactly for regions that can hold a control page. -/
theorem geometry_safe_iff (g : Geometry) (haccept : g.check = 0) :
    g.Safe ↔ stateSize ≤ g.size.toNat := by
  obtain ⟨himage, hstatus, hentry, hend⟩ := g.of_check haccept
  constructor
  · intro hsafe
    have hcontrol := hsafe.control
    omega
  · intro hsize
    have hstate : (BitVec.ofNat 64 stateSize).toNat = stateSize := rfl
    have hle : BitVec.ofNat 64 stateSize ≤ g.size := by
      rw [BitVec.le_def, hstate]
      exact hsize
    rw [BitVec.toNat_sub_of_le hle, hstate] at hstatus
    have hcontrol : g.statusOffset.toNat + stateSize ≤ g.size.toNat := by omega
    have hinside : g.imageSize.toNat ≤ g.size.toNat := by omega
    refine ⟨fun a ha => by omega, hinside, hcontrol, ⟨hentry, ?_⟩, ?_, ?_⟩
    · rw [BitVec.toNat_add] at hend
      exact lt_of_lt_of_le hend (Nat.mod_le _ _)
    · rintro cfg d off buf hcfg hwritten hbuf a ha
      exact imageWrite_carveout off hbuf hwritten (hcfg ▸ hinside.trans ha)
    · intro access
      have hwithin := access.extent_within g
      exact ⟨Nat.zero_le _, hwithin.2.trans hcontrol⟩

theorem geometry_safe_board :
    Geometry.Safe ⟨0x20000, 0x3ff000, 0x5000100c, 0x50000000, 0x2000000⟩ :=
  (geometry_safe_iff ⟨0x20000, 0x3ff000, 0x5000100c, 0x50000000, 0x2000000⟩ rfl).mpr (by decide)

/-- A region of 2 KiB is accepted, and the control page reaches beyond its end. -/
theorem small_region_accepted :
    Geometry.check ⟨16, 16, 0x10000000, 0x10000000, 0x800⟩ = 0 ∧
      ¬ ((ControlAccess.clear.extent ⟨16, 16, 0x10000000, 0x10000000, 0x800⟩).Within 0 0x800) ∧
      ¬ ((ControlAccess.extent ⟨16, 16, 0x10000000, 0x10000000, 0x800⟩
        (.cpu3ToLinux 0 .producer)).Within 0 0x800) := by
  refine ⟨rfl, fun h => absurd h.2 (by decide), fun h => absurd h.2 (by decide)⟩

end Lzamp.R1Amp
