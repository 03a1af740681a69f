import Lzamp.R1Amp.Geometry
import Lzamp.R1Amp.SessionRefinement

namespace Lzamp.R1Amp
open Mailmsg Lib

/-- The part of the driver that an upload is about. -/
structure Upload where
  written : U64
  attempted : Bool
  image : ℕ → U8

def Driver.upload (d : Driver) : Upload := ⟨d.life.imageWritten, d.life.cpuOnAttempted, d.carveout⟩

def Output.succeeded (out : Output) : Bool := out.ret.any (0 ≤ ·)

/-- The chunk that an operation appended to the image. -/
def acceptedChunk : Op × Output → Option (List U8)
  | (.imageWrite _ buf, out) => if out.succeeded then some buf else none
  | _ => none

def isRearmed : Op × Output → Bool
  | (.rearmStore .., out) => out.succeeded
  | _ => false

def callsCpuOn (label : Op × Output) : Prop := ∃ ret, .cpuOn ret ∈ label.2.effects

inductive UploadChange (cfg : Config) : Upload → Op × Output → Upload → Prop
  | quiet {u : Upload} {label : Op × Output} (chunk : acceptedChunk label = none)
      (rearm : isRearmed label = false) (cpuOn : ¬ callsCpuOn label) : UploadChange cfg u label u
  | append {u : Upload} {buf : List U8} (attempted : u.attempted = false)
      (fits : BitVec.ofNat 64 buf.length ≤ cfg.imageSize.setWidth 64 - u.written) :
      UploadChange cfg u (.imageWrite u.written buf, ⟨some buf.length, [], [.imageCopied]⟩)
        { u with
          written := u.written + BitVec.ofNat 64 buf.length
          image := copyBytes u.image u.written.toNat buf }
  | launch {u : Upload} {count : ℕ} {affinity ret : Int} {now : U64}
      (attempted : u.attempted = false) (complete : u.written = cfg.imageSize.setWidth 64) :
      UploadChange cfg u (.startStore true count affinity ret now,
        ⟨some (storeResult ret count), [], [.controlPageCleared, .cpuOn ret]⟩)
        { u with attempted := true }
  | rearm {u : Upload} {count : ℕ} {affinity : Int} (attempted : u.attempted = true) :
      UploadChange cfg u (.rearmStore true count affinity, ⟨some (storeResult 0 count), [], []⟩)
        ⟨0, false, u.image⟩

theorem upload_refreshAffinity (affinity : Int) (d : Driver) :
    (refreshAffinityLocked affinity d).upload = d.upload := by
  rcases refreshAffinity_cases affinity d with heq | ⟨-, -, -, -, heq⟩ <;> rw [heq] <;> rfl

theorem upload_setTimeout (d : Driver) : (mailmsgSetTimeoutLocked d).upload = d.upload := by
  unfold mailmsgSetTimeoutLocked
  cases d.life.mailmsgState <;> rfl

theorem upload_affinityWork (affinity : Int) (d : Driver) :
    (affinityWork affinity d).upload = d.upload := by
  have h := upload_refreshAffinity affinity { d with life := { d.life with
    affinityMonitorCount := d.life.affinityMonitorCount + 1 } }
  unfold affinityWork
  split
  all_goals first
    | rfl
    | split_ifs <;> exact h

theorem upload_lifecycleTimeoutWork (now : U64) (affinity : Int) (d : Driver) :
    (mailmsgLifecycleTimeoutWork now affinity d).upload = d.upload := by
  have h := upload_refreshAffinity affinity d
  unfold mailmsgLifecycleTimeoutWork
  dsimp only
  split_ifs
  · rfl
  · rfl
  · exact h
  · exact (upload_setTimeout _).trans h
  · exact upload_setTimeout d

theorem upload_controlError (d : Driver) (ret : Int) : (controlError d ret).upload = d.upload := by
  unfold controlError
  dsimp only
  split_ifs <;> rfl

theorem upload_controlRound (cfg : Config) (now rearm : U64) (d : Driver) :
    (controlRound cfg now rearm d).driver.upload = d.upload := by
  unfold controlRound controlFrame
  dsimp only
  split_ifs
  all_goals first
    | rfl
    | exact upload_controlError _ _
    | exact upload_setTimeout _

theorem upload_controlWork {cfg : Config} {start : U64} {clock : ℕ → U64} {fuel : ℕ}
    {d d' : Driver} {es : List Effect}
    (h : mailmsgControlWork cfg start clock fuel d = some (d', es)) : d'.upload = d.upload := by
  unfold mailmsgControlWork at h
  split_ifs at h
  · cases h
    rfl
  · cases h
    exact upload_setTimeout d
  · exact controlLoop_keeps (P := fun d₁ _ => d₁.upload = d.upload)
      (fun now rearm d₁ _ hd => (upload_controlRound cfg now rearm d₁).trans hd) rfl h

theorem upload_stopStore (cfg : Config) (isStop : Bool) (count : ℕ) (now : U64) (d : Driver) :
    (mailmsgStopStore cfg isStop count now d).driver.upload = d.upload := by
  unfold mailmsgStopStore sendStopRequest
  dsimp only
  split_ifs <;> rfl

theorem imageWrite_upload (cfg : Config) (off : U64) (buf : List U8) (d : Driver) :
    UploadChange cfg d.upload (.imageWrite off buf, ⟨some (imageWrite cfg off buf d).ret, [],
        (imageWrite cfg off buf d).effects⟩) (imageWrite cfg off buf d).driver.upload := by
  unfold imageWrite
  dsimp only
  split_ifs with hattempted hoff hcount
  · exact .quiet rfl rfl (by simp [callsCpuOn])
  · exact .quiet rfl rfl (by simp [callsCpuOn])
  · exact .quiet rfl rfl (by simp [callsCpuOn])
  · obtain rfl := not_not.mp hoff
    have hatt : d.upload.attempted = false := by simpa [Driver.upload] using hattempted
    exact UploadChange.append (u := d.upload) hatt (BitVec.not_lt.mp hcount)

theorem startStore_upload (cfg : Config) (isStart : Bool) (count : ℕ) (affinity cpuOn : Int)
    (now : U64) (d : Driver) :
    UploadChange cfg d.upload (.startStore isStart count affinity cpuOn now,
        ⟨some (startStore cfg isStart count affinity cpuOn now d).ret, [],
          (startStore cfg isStart count affinity cpuOn now d).effects⟩)
      (startStore cfg isStart count affinity cpuOn now d).driver.upload := by
  have hrefresh := upload_refreshAffinity affinity d
  unfold startStore
  dsimp only
  split_ifs with htext hatt himage hops hoff
  · exact .quiet rfl rfl (by simp [callsCpuOn])
  · exact .quiet rfl rfl (by simp [callsCpuOn])
  · exact .quiet rfl rfl (by simp [callsCpuOn])
  · exact .quiet rfl rfl (by simp [callsCpuOn])
  · rw [hrefresh]
    exact .quiet rfl rfl (by simp [callsCpuOn])
  · have hstart : isStart = true := by simpa using htext
    have hatt' : d.upload.attempted = false := by simpa [Driver.upload] using hatt
    have hupload : (startSession cfg cpuOn now (refreshAffinityLocked affinity d)).driver.upload =
        { d.upload with attempted := true } := by
      rw [← hrefresh, startSession_eq]
      unfold launched
      by_cases hret : cpuOn = 0 <;> simp [Driver.upload, hret]
    subst hstart
    rw [hupload, startSession_eq]
    exact .launch hatt' (not_not.mp himage)

theorem rearmStore_upload (cfg : Config) (isRearm : Bool) (count : ℕ) (affinity : Int)
    (d : Driver) :
    UploadChange cfg d.upload (.rearmStore isRearm count affinity,
        ⟨some (rearmStore cfg isRearm count affinity d).ret, [],
          (rearmStore cfg isRearm count affinity d).effects⟩)
      (rearmStore cfg isRearm count affinity d).driver.upload := by
  have hrefresh := upload_refreshAffinity affinity d
  unfold rearmStore
  dsimp only
  split_ifs with htext hatt hopen hops hoff hbell
  · exact .quiet rfl rfl (by simp [callsCpuOn])
  · exact .quiet rfl rfl (by simp [callsCpuOn])
  · exact .quiet rfl rfl (by simp [callsCpuOn])
  · exact .quiet rfl rfl (by simp [callsCpuOn])
  · rw [hrefresh]
    exact .quiet rfl rfl (by simp [callsCpuOn])
  · rw [hrefresh]
    exact .quiet rfl rfl (by simp [callsCpuOn])
  · have hrearm : isRearm = true := by simpa using htext
    have hatt' : d.upload.attempted = true := by simpa [Driver.upload] using hatt
    have hupload : (rearmed (refreshAffinityLocked affinity d)).upload =
        ⟨0, false, d.upload.image⟩ := by rw [← hrefresh]; rfl
    subst hrearm
    rw [hupload]
    exact .rearm hatt'

theorem Change.not_callsCpuOn {s s' : Session} {label : Op × Output} (h : Change s label s')
    (hop : ∀ isStart count affinity cpuOn now,
      label.1 ≠ .startStore isStart count affinity cpuOn now) : ¬ callsCpuOn label := by
  rintro ⟨ret, hret⟩
  cases h with
  | quiet hnone => exact hnone ret hret
  | seen hnone => exact hnone ret hret
  | offline hnone => exact hnone ret hret
  | timeout hnone => exact hnone ret hret
  | ready hnone =>
    rcases List.mem_append.mp hret with hmem | hmem
    · exact hnone ret hmem
    · exact noCpuOn_received _ _ _ ret hmem
  | refused hnone => exact hnone ret hret
  | stop hnone => exact hnone ret hret
  | rearm => cases hret
  | start => exact hop _ _ _ _ _ rfl

theorem step_upload {cfg : Config} {w w' : World} {label : Op × Output}
    (h : Step cfg w label w') : UploadChange cfg w.driver.upload label w'.driver.upload := by
  obtain ⟨op, out⟩ := label
  have hexec : exec cfg w op = some (out, w') := h
  -- most operations leave the image alone and report nothing about it
  have hquiet (hupload : w'.driver.upload = w.driver.upload)
      (hchunk : acceptedChunk (op, out) = none) (hrearm : isRearmed (op, out) = false)
      (hop : ∀ isStart count affinity cpuOn now,
        op ≠ .startStore isStart count affinity cpuOn now) :
      UploadChange cfg w.driver.upload (op, out) w'.driver.upload :=
    hupload ▸ .quiet hchunk hrearm ((step_change h).not_callsCpuOn hop)
  cases hop : op.isLifecycle with
  | false =>
    have hkeeps := (exec_dataPlane hop hexec).keeps
    refine hquiet (by simp only [Driver.upload, hkeeps.life, hkeeps.carveout]) ?_ ?_ ?_
    · cases op <;> first | rfl | cases hop
    · cases op <;> first | rfl | cases hop
    · rintro isStart count affinity cpuOn now rfl
      cases hop
  | true =>
    cases op with
    | imageWrite off buf =>
      cases hexec
      exact imageWrite_upload cfg off buf w.driver
    | startStore isStart count affinity cpuOn now =>
      cases hexec
      exact startStore_upload cfg isStart count affinity cpuOn now w.driver
    | rearmStore isRearm count affinity =>
      cases hexec
      exact rearmStore_upload cfg isRearm count affinity w.driver
    | stopStore isStop count now =>
      cases hexec
      exact hquiet (upload_stopStore cfg isStop count now w.driver) rfl rfl (by simp)
    | controlWork start clock fuel =>
      simp only [exec, Option.map_eq_some_iff] at hexec
      obtain ⟨r, hr, heq⟩ := hexec
      cases heq
      exact hquiet (upload_controlWork hr) rfl rfl (by simp)
    | lifecycleTimeoutWork now affinity =>
      cases hexec
      exact hquiet (upload_lifecycleTimeoutWork now affinity w.driver) rfl rfl (by simp)
    | affinityWork affinity =>
      cases hexec
      exact hquiet (upload_affinityWork affinity w.driver) rfl rfl (by simp)
    | affinityStateShow affinity =>
      cases hexec
      refine hquiet ?_ rfl rfl (by simp)
      change (affinityStateShow cfg affinity w.driver).driver.upload = w.driver.upload
      unfold affinityStateShow
      split_ifs
      · rfl
      · exact upload_refreshAffinity affinity w.driver
    | _ => cases hop

/-- CPU3 owns the image area while CPU_ON has been called for it. -/
inductive ImageLabel
  | driver (op : Op) (out : Output)
  | cpu3

inductive ImageStep (cfg : Config) : World → ImageLabel → World → Prop
  | driver {w w' : World} {op : Op} {out : Output} (step : Step cfg w (op, out) w')
      (size : ∀ off buf, op = .imageWrite off buf → buf.length < 2 ^ 64) :
      ImageStep cfg w (.driver op out) w'
  | cpu3 {w : World} (attempted : w.driver.life.cpuOnAttempted = true) (image : ℕ → U8) :
      ImageStep cfg w .cpu3 (w.withDriver { w.driver with carveout := image })

/-- The chunks accepted since the last rearm. -/
def chunksAfter (chunks : List (List U8)) : ImageLabel → List (List U8)
  | .cpu3 => chunks
  | .driver op out =>
    if isRearmed (op, out) then [] else chunks ++ (acceptedChunk (op, out)).toList

def chunksOf (labels : List ImageLabel) : List (List U8) := labels.foldl chunksAfter []

theorem chunksOf_snoc (labels : List ImageLabel) (label : ImageLabel) :
    chunksOf (labels ++ [label]) = chunksAfter (chunksOf labels) label := by
  simp [chunksOf]

/-- The upload so far is what the accepted chunks say. -/
structure UploadInv (cfg : Config) (chunks : List (List U8)) (u : Upload) : Prop where
  written : u.written.toNat = chunks.flatten.length
  bounded : chunks.flatten.length ≤ cfg.imageSize.toNat
  contents : u.attempted = false →
    (List.range chunks.flatten.length).map u.image = chunks.flatten

theorem map_copyBytes (memory : ℕ → U8) (n : ℕ) (buf : List U8) :
    (List.range (n + buf.length)).map (copyBytes memory n buf) =
      (List.range n).map memory ++ buf := by
  rw [List.range_add, List.map_append, List.map_map]
  congr 1
  · refine List.map_congr_left fun i hi => if_neg ?_
    have hlt := List.mem_range.mp hi
    omega
  · apply List.ext_getElem
    · simp
    · intro i hi hi'
      simp [copyBytes, hi']

theorem succeeded_count (count : ℕ) (lines : List ResponseLine) (effects : List Effect) :
    Output.succeeded ⟨some (count : Int), lines, effects⟩ = true := by
  simp [Output.succeeded]

theorem UploadInv.append {cfg : Config} {chunks : List (List U8)} {u : Upload}
    (hinv : UploadInv cfg chunks u) {buf : List U8} (hsize : buf.length < 2 ^ 64)
    (hatt : u.attempted = false)
    (hfits : BitVec.ofNat 64 buf.length ≤ cfg.imageSize.setWidth 64 - u.written) :
    UploadInv cfg (chunks ++ [buf]) { u with
      written := u.written + BitVec.ofNat 64 buf.length
      image := copyBytes u.image u.written.toNat buf } := by
  obtain ⟨hwritten, hbounded, hcontents⟩ := hinv
  have hcount : (BitVec.ofNat 64 buf.length).toNat = buf.length :=
    (BitVec.toNat_ofNat _ _).trans (Nat.mod_eq_of_lt hsize)
  have himage : (cfg.imageSize.setWidth 64).toNat = cfg.imageSize.toNat :=
    BitVec.toNat_setWidth_of_le (by decide)
  have hle : u.written ≤ cfg.imageSize.setWidth 64 := by
    rw [BitVec.le_def, himage, hwritten]
    exact hbounded
  have hroom : buf.length ≤ cfg.imageSize.toNat - chunks.flatten.length := by
    have h := BitVec.le_def.mp hfits
    rwa [hcount, BitVec.toNat_sub_of_le hle, himage, hwritten] at h
  have hlength : (chunks ++ [buf]).flatten.length = chunks.flatten.length + buf.length := by simp
  have hlt := cfg.imageSize.isLt
  refine ⟨?_, ?_, fun _ => ?_⟩
  · dsimp only
    rw [BitVec.toNat_add, hcount, hwritten, hlength]
    omega
  · omega
  · dsimp only
    rw [hlength, hwritten, map_copyBytes, hcontents hatt]
    simp

theorem UploadChange.inv {cfg : Config} {u u' : Upload} {op : Op} {out : Output}
    (h : UploadChange cfg u (op, out) u')
    (hsize : ∀ off buf, op = .imageWrite off buf → buf.length < 2 ^ 64)
    {chunks : List (List U8)} (hinv : UploadInv cfg chunks u) :
    UploadInv cfg (chunksAfter chunks (.driver op out)) u' := by
  cases h with
  | quiet hchunk hrearm hcpu =>
    rw [chunksAfter, hchunk, hrearm]
    simpa using hinv
  | @append buf hatt hfits =>
    have hchunk : acceptedChunk (.imageWrite u.written buf,
        ⟨some (buf.length : Int), [], [.imageCopied]⟩) = some buf := by
      simp [acceptedChunk, succeeded_count]
    rw [chunksAfter, hchunk]
    exact hinv.append (hsize _ _ rfl) hatt hfits
  | launch hatt hcomplete =>
    refine ⟨?_, ?_, fun h => by cases h⟩
    · simpa [chunksAfter, isRearmed, acceptedChunk] using hinv.written
    · simpa [chunksAfter, isRearmed, acceptedChunk] using hinv.bounded
  | @rearm count affinity hatt =>
    have hrearm : isRearmed (.rearmStore true count affinity,
        ⟨some (storeResult 0 count), [], []⟩) = true := by
      simp [isRearmed, storeResult, succeeded_count]
    rw [chunksAfter, hrearm]
    exact ⟨rfl, Nat.zero_le _, fun _ => rfl⟩

def ImageLabel.Launches : ImageLabel → Prop
  | .driver op out => callsCpuOn (op, out)
  | .cpu3 => False

def ImageLabel.Rearms : ImageLabel → Prop
  | .driver op out => isRearmed (op, out) = true
  | .cpu3 => False

theorem UploadChange.attempted {cfg : Config} {u u' : Upload} {op : Op} {out : Output}
    (h : UploadChange cfg u (op, out) u')
    (hbefore : callsCpuOn (op, out) ∨ (u.attempted = true ∧ isRearmed (op, out) ≠ true)) :
    u'.attempted = true := by
  cases h with
  | quiet hchunk hrearm hcpu =>
    rcases hbefore with hcalls | ⟨hatt, -⟩
    · exact absurd hcalls hcpu
    · exact hatt
  | append hatt hfits =>
    rcases hbefore with ⟨ret, hret⟩ | ⟨hatt', -⟩
    · simp at hret
    · exact hatt'
  | launch hatt hcomplete => rfl
  | rearm hatt =>
    rcases hbefore with ⟨ret, hret⟩ | ⟨-, hrearm⟩
    · cases hret
    · simp [isRearmed, storeResult, succeeded_count] at hrearm

theorem UploadChange.of_callsCpuOn {cfg : Config} {u u' : Upload} {label : Op × Output}
    (h : UploadChange cfg u label u') (hcpu : callsCpuOn label) :
    u.attempted = false ∧ u.written = cfg.imageSize.setWidth 64 ∧ u'.image = u.image := by
  cases h with
  | quiet _ _ hnone => exact absurd hcpu hnone
  | append hatt hfits => simp [callsCpuOn] at hcpu
  | launch hatt hcomplete => exact ⟨hatt, hcomplete, rfl⟩
  | rearm hatt => simp [callsCpuOn] at hcpu

theorem UploadChange.of_attempted {cfg : Config} {u u' : Upload} {label : Op × Output}
    (h : UploadChange cfg u label u') (hatt : u.attempted = true) :
    u'.image = u.image ∧ ¬ callsCpuOn label := by
  cases h with
  | quiet _ _ hnone => exact ⟨rfl, hnone⟩
  | append hfree => exact absurd hatt (by simp [hfree])
  | launch hfree => exact absurd hatt (by simp [hfree])
  | rearm _ => exact ⟨rfl, by simp [callsCpuOn]⟩

theorem imageWrite_failed {cfg : Config} {off : U64} {buf : List U8} {d : Driver}
    (h : (imageWrite cfg off buf d).ret < 0) : (imageWrite cfg off buf d).driver = d := by
  unfold imageWrite at h ⊢
  dsimp only at h ⊢
  split_ifs at h ⊢
  · rfl
  · rfl
  · rfl
  · exact absurd h (by simp)

structure ImageInv (cfg : Config) (labels : List ImageLabel) (w : World) : Prop where
  upload : UploadInv cfg (chunksOf labels) w.driver.upload
  attempted : Since ImageLabel.Launches ImageLabel.Rearms labels →
    w.driver.upload.attempted = true

theorem ImageInv.step {cfg : Config} {labels : List ImageLabel} {w w' : World}
    {label : ImageLabel} (h : ImageInv cfg labels w) (hstep : ImageStep cfg w label w') :
    ImageInv cfg (labels ++ [label]) w' := by
  cases hstep with
  | driver step size =>
    have hchange := step_upload step
    refine ⟨?_, fun hsince => hchange.attempted ?_⟩
    · rw [chunksOf_snoc]
      exact hchange.inv size h.upload
    · rcases hsince.of_snoc with hlaunch | ⟨hsince, hrearm⟩
      · exact .inl hlaunch
      · exact .inr ⟨h.attempted hsince, hrearm⟩
  | cpu3 hatt image =>
    refine ⟨?_, fun _ => hatt⟩
    rw [chunksOf_snoc]
    exact ⟨h.upload.written, h.upload.bounded, fun hfree => Bool.noConfusion (hatt.symm.trans hfree)⟩

theorem imageInv {cfg : Config} {w₀ w : World} {labels : List ImageLabel} (h₀ : w₀.Probed)
    (hrun : Trace (ImageStep cfg) w₀ labels w) : ImageInv cfg labels w := by
  refine hrun.history_invariant (I := ImageInv cfg) ?_
    fun _ _ _ _ _ hinv hstep => hinv.step hstep
  refine ⟨⟨?_, Nat.zero_le _, fun _ => rfl⟩, ?_⟩
  · rw [Driver.upload, h₀.life]
    rfl
  · rintro ⟨pre, a, post, heq, -⟩
    simp at heq

/-- The bytes of the carveout, with `page` in the control page at `statusOffset`. -/
def carveoutBytes (statusOffset : U32) (page : ℕ → U8) (d : Driver) : ℕ → U8 := fun a =>
  if statusOffset.toNat ≤ a ∧ a < statusOffset.toNat + stateSize then page (a - statusOffset.toNat)
  else d.carveout a

/-- Progress stays within the image; what CPU_ON finds there are the chunks accepted since the last
rearm; a rejected write changes nothing; and after CPU_ON nothing is written and no CPU is started
until a rearm. -/
theorem cpu_on_launches_upload (cfg : Config) (statusOffset : U32)
    (hgeometry : cfg.imageSize ≤ statusOffset) (w₀ w : World) (labels : List ImageLabel)
    (h₀ : w₀.Probed) (hrun : Trace (ImageStep cfg) w₀ labels w) :
    w.driver.life.imageWritten.toNat ≤ cfg.imageSize.toNat ∧
    (cfg.imageSize.setWidth 64 - w.driver.life.imageWritten).toNat =
      cfg.imageSize.toNat - w.driver.life.imageWritten.toNat ∧
    ∀ op out w', ImageStep cfg w (.driver op out) w' →
      (callsCpuOn (op, out) → ∀ page,
        (List.range cfg.imageSize.toNat).map (carveoutBytes statusOffset page w'.driver) =
          (chunksOf labels).flatten) ∧
      (∀ off buf, op = .imageWrite off buf → out.succeeded = false → w' = w) ∧
      (Since ImageLabel.Launches ImageLabel.Rearms labels →
        w'.driver.carveout = w.driver.carveout ∧ ¬ callsCpuOn (op, out)) := by
  obtain ⟨hupload, hattempted⟩ := imageInv h₀ hrun
  have himage : (cfg.imageSize.setWidth 64).toNat = cfg.imageSize.toNat :=
    BitVec.toNat_setWidth_of_le (by decide)
  have hle : w.driver.life.imageWritten.toNat ≤ cfg.imageSize.toNat :=
    hupload.written.le.trans hupload.bounded
  refine ⟨hle, ?_, ?_⟩
  · rw [BitVec.toNat_sub_of_le (BitVec.le_def.mpr (himage.symm ▸ hle)), himage]
  · intro op out w' hstep
    cases hstep with
    | driver step size =>
      have hchange := step_upload step
      refine ⟨fun hcpu page => ?_, ?_, fun hsince => ?_⟩
      · obtain ⟨hfree, hcomplete, hsame⟩ := hchange.of_callsCpuOn hcpu
        have hlength : (chunksOf labels).flatten.length = cfg.imageSize.toNat := by
          rw [← hupload.written, hcomplete, himage]
        have hbytes : (List.range cfg.imageSize.toNat).map w'.driver.carveout =
            (chunksOf labels).flatten := by
          have hcarveout : w'.driver.carveout = w.driver.carveout := hsame
          rw [hcarveout, ← hlength]
          exact hupload.contents hfree
        rw [← hbytes]
        -- the image ends before the control page begins
        refine List.map_congr_left fun a ha => if_neg ?_
        have hlt := List.mem_range.mp ha
        have hpage := BitVec.le_def.mp hgeometry
        omega
      · rintro off buf rfl hfailed
        cases step
        have hneg : (imageWrite cfg off buf w.driver).ret < 0 := by
          simpa [Output.succeeded, World.ran] using hfailed
        exact congrArg w.withDriver (imageWrite_failed hneg)
      · exact hchange.of_attempted (hattempted hsince)

theorem imageStep_imageWrite (cfg : Config) (w : World) (off : U64) (buf : List U8)
    (hsize : buf.length < 2 ^ 64) :
    ImageStep cfg w (.driver (.imageWrite off buf) (w.ran (imageWrite cfg off buf w.driver)).1)
      (w.ran (imageWrite cfg off buf w.driver)).2 := by
  refine .driver rfl ?_
  intro off' buf' heq
  cases heq
  exact hsize

/-- Two chunks with a misplaced one between them, and the start. -/
theorem cpu_on_launches_two_chunks : ∃ labels w op out w',
    Trace (ImageStep board) probedWorld labels w ∧ ImageStep board w (.driver op out) w' ∧
      callsCpuOn (op, out) ∧ chunksOf labels = [[1, 2], [3, 4]] ∧
      (List.range 4).map (carveoutBytes 16 (fun _ => 0) w'.driver) = [1, 2, 3, 4] := by
  have hrun := Trace.cons (imageStep_imageWrite board probedWorld 0 [1, 2] (by decide))
    (.cons (imageStep_imageWrite board _ 3 [9] (by decide))
      (.cons (imageStep_imageWrite board _ 2 [3, 4] (by decide)) (.nil _)))
  have hstart := fun w => @ImageStep.driver board w _ (.startStore true 5 affinityOff 0 100) _ rfl
    (by intro off buf h; cases h)
  have hall := cpu_on_launches_upload board 16 (by decide) probedWorld _ _ probedWorld_probed hrun
  have hbytes := (hall.2.2 _ _ _ (hstart _)).1 ⟨0, by decide⟩ fun _ => 0
  exact ⟨_, _, _, _, _, hrun, hstart _, ⟨0, by decide⟩, rfl, hbytes⟩

end Lzamp.R1Amp
