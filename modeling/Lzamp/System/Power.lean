import Lzamp.R1Amp.LifecycleSafety
import Mathlib.Logic.Relation

namespace Lzamp.System
open Mailmsg Lib R1Amp

/-- The power state of CPU3.  CPU_ON moves it from off to starting at once, while `affinity_info`
may go on reporting OFF for a while: starting is split by whether it shows yet.  OFF is reported
again only after CPU_OFF. -/
inductive Power where
  | off
  | lagging
  | visible
  | on
deriving DecidableEq

/-- What `affinity_info` may answer; errors are always possible. -/
def Power.Reports : Power → Int → Prop
  | .off, a | .lagging, a => a ≠ affinityOn ∧ a ≠ affinityOnPending
  | .visible, a | .on, a => a ≠ affinityOff

/-- What CPU3 and the firmware do on their own. -/
inductive Progress : Power → Power → Prop
  | shown : Progress .lagging .visible
  | boots : Progress .visible .on
  | cpuOff : Progress .on .off

theorem Progress.of_off {p : Power} (h : Relation.ReflTransGen Progress .off p) : p = .off := by
  rcases Relation.ReflTransGen.cases_head h with heq | ⟨q, hq, -⟩
  · exact heq.symm
  · cases hq

theorem Power.Reports.off {p : Power} (h : p.Reports affinityOff) : p = .off ∨ p = .lagging := by
  cases p with
  | off => exact Or.inl rfl
  | lagging => exact Or.inr rfl
  | visible => exact absurd rfl h
  | on => exact absurd rfl h

structure Board where
  world : World
  power : Power

/-- An event is CPU3 moving on, or a driver operation during whose writes CPU3 was in `mid`. -/
inductive Event where
  | cpu3
  | driver (op : Op) (out : Output) (mid : Power)

/-- CPU3 may move on before, during and after a driver operation.  A CPU_ON call succeeds only when
CPU3 is off, and CPU3 writes to the shared page only when it is on. -/
inductive PowerStep (cfg : Config) : Board → Event → Board → Prop
  | cpu3 {w : World} {p p' : Power} (h : Progress p p') : PowerStep cfg ⟨w, p⟩ .cpu3 ⟨w, p'⟩
  | driver {w w' : World} {op : Op} {out : Output} {p mid last p' : Power}
      (step : Step cfg w (op, out) w')
      (reading : ∀ a, affinityOf op = some a → p.Reports a)
      (peer : ∀ shared status, op = .peer shared status → p = .on)
      (before : Relation.ReflTransGen Progress p mid)
      (after : Relation.ReflTransGen Progress mid last)
      (launch : .cpuOn 0 ∈ out.effects → last = .off ∧ p' = .lagging)
      (stay : .cpuOn 0 ∉ out.effects → p' = last) :
      PowerStep cfg ⟨w, p⟩ (.driver op out mid) ⟨w', p'⟩

/-- The driver wrote to memory that CPU3 executes from or reads. -/
def Overwrites (out : Output) : Prop :=
  .imageCopied ∈ out.effects ∨ .controlPageCleared ∈ out.effects

theorem controlRound_received (cfg : Config) (now rearm : U64) (d : Driver) :
    ∀ e ∈ (controlRound cfg now rearm d).effects, ∃ m now deadline, e = .received m now deadline := by
  unfold controlRound controlFrame
  dsimp only
  split_ifs <;> simp [Round.effects]

theorem controlLoop_received {cfg : Config} {clock : ℕ → U64} {fuel i : ℕ} {d d' : Driver}
    {log es : List Effect} (hlog : ∀ e ∈ log, ∃ m now deadline, e = .received m now deadline)
    (h : controlLoop cfg clock fuel i d log = some (d', es)) :
    ∀ e ∈ es, ∃ m now deadline, e = .received m now deadline := by
  refine controlLoop_keeps
    (P := fun _ log => ∀ e ∈ log, ∃ m now deadline, e = .received m now deadline) ?_ hlog h
  intro now rearm d₁ log₁ hbefore
  exact List.forall_mem_append.mpr ⟨hbefore, controlRound_received cfg now rearm d₁⟩

/-- The image is written and the page cleared only while no CPU_ON was attempted. -/
theorem overwrites_unattempted {cfg : Config} {w w' : World} {op : Op} {out : Output}
    (h : exec cfg w op = some (out, w')) (hover : Overwrites out) :
    w.driver.life.cpuOnAttempted = false := by
  by_contra hatt
  rw [Bool.not_eq_false] at hatt
  -- only the image write and the start log one of the two effects, and both look at the flag
  cases hop : op.isLifecycle with
  | false =>
    have heffects := (exec_dataPlane hop h).effects
    simp [Overwrites, heffects] at hover
  | true =>
    cases op with
    | imageWrite off buf =>
      cases h
      simp [Overwrites, imageWrite, hatt] at hover
    | startStore isStart count affinity cpuOn now =>
      cases h
      simp only [Overwrites, startStore, hatt, if_true] at hover
      split_ifs at hover <;> simp at hover
    | rearmStore isRearm count affinity =>
      cases h
      simp only [Overwrites, rearmStore] at hover
      split_ifs at hover <;> simp at hover
    | stopStore isStop count now =>
      cases h
      simp only [Overwrites, mailmsgStopStore] at hover
      split_ifs at hover <;> simp at hover
    | controlWork start clock fuel =>
      simp only [exec, Option.map_eq_some_iff, mailmsgControlWork] at h
      obtain ⟨r, hr, heq⟩ := h
      cases heq
      split_ifs at hr
      · cases hr
        simp [Overwrites] at hover
      · cases hr
        simp [Overwrites] at hover
      · have hreceived := controlLoop_received (by simp) hr
        rcases hover with hmem | hmem <;>
          obtain ⟨m, now, deadline, heq⟩ := hreceived _ hmem <;> cases heq
    | lifecycleTimeoutWork | affinityWork =>
      cases h
      simp [Overwrites, Output.silent] at hover
    | affinityStateShow affinity =>
      cases h
      simp only [Overwrites, affinityStateShow] at hover
      split_ifs at hover <;> simp at hover
    | _ => simp [Op.isLifecycle] at hop

theorem unattempted_after {s s' : Session} {op : Op} {out : Output} (h : Change s (op, out) s')
    (hs' : s'.attempted = false) :
    NoCpuOn out.effects ∧
      (s.attempted = false ∨ ∃ count affinity, op = .rearmStore true count affinity) := by
  cases h with
  | quiet h => exact ⟨h, Or.inl hs'⟩
  | seen h => exact ⟨h, Or.inl hs'⟩
  | offline h _ _ _ => exact ⟨h, Or.inl hs'⟩
  | timeout h _ _ _ => exact ⟨h, Or.inl hs'⟩
  | ready h _ _ _ => exact ⟨noCpuOn_append h (noCpuOn_received _ _ _), Or.inl hs'⟩
  | refused h _ => exact ⟨h, Or.inl hs'⟩
  | stop h _ => exact ⟨h, Or.inl hs'⟩
  | rearm _ => exact ⟨noCpuOn_nil, Or.inr ⟨_, _, rfl⟩⟩
  | start _ => simp [Session.started] at hs'

theorem rearm_reads_off {cfg : Config} {isRearm : Bool} {count : ℕ} {affinity : Int} {d : Driver}
    (hatt : d.life.cpuOnAttempted = true)
    (h : (rearmStore cfg isRearm count affinity d).driver.life.cpuOnAttempted = false) :
    affinity = affinityOff := by
  have hkeep : (refreshAffinityLocked affinity d).life.cpuOnAttempted = true := by
    rcases refreshAffinity_cases affinity d with heq | ⟨-, -, -, -, heq⟩ <;> rw [heq] <;> exact hatt
  unfold rearmStore at h
  dsimp only at h
  split_ifs at h with htext hunattempted hopen hops hoff hbell
  · simp [hatt] at h
  · simp [hatt] at h
  · simp [hatt] at h
  · simp [hatt] at h
  · simp [hkeep] at h
  · simp [hkeep] at h
  · exact (affinityState_refresh affinity d).symm.trans (not_not.mp hoff)

/-- Before a start is attempted CPU3 is off. -/
def PowerInv (b : Board) : Prop := b.world.driver.life.cpuOnAttempted = false → b.power = .off

/-- The condition on one event: no rearm while CPU3 is starting and still reported OFF. -/
def NoEarlyRearm (b : Board) (e : Event) : Prop :=
  ∀ count affinity out mid, e = .driver (.rearmStore true count affinity) out mid →
    b.power ≠ .lagging

theorem PowerInv.step {cfg : Config} {b b' : Board} {e : Event} (hb : PowerInv b)
    (hcond : NoEarlyRearm b e) (h : PowerStep cfg b e b') : PowerInv b' := by
  cases h with
  | cpu3 hprogress =>
    intro hatt
    have hoff := hb hatt
    dsimp only at hoff
    subst hoff
    cases hprogress
  | @driver w w' op out p mid last p' step reading peer before after launch stay =>
    intro hatt
    obtain ⟨hnone, hcase⟩ := unattempted_after (step_change step) hatt
    have hoff : p = .off := by
      by_cases hbefore : w.driver.life.cpuOnAttempted = false
      · exact hb hbefore
      · obtain ⟨count, affinity, rfl⟩ := hcase.resolve_left hbefore
        cases step
        have hreads := rearm_reads_off (by simpa using hbefore) hatt
        have hreports := reading affinity rfl
        rw [hreads] at hreports
        exact hreports.off.resolve_right (hcond count affinity _ mid rfl)
    subst hoff
    obtain rfl := Progress.of_off before
    rw [stay (hnone 0)]
    exact Progress.of_off after

/-- In every run without an early rearm, the image is written and the control page cleared only
while CPU3 is off. -/
theorem overwrites_only_when_off {cfg : Config} {b₀ b : Board} {events : List Event}
    (hoff : b₀.power = .off)
    (h : Trace (fun b e b' => NoEarlyRearm b e ∧ PowerStep cfg b e b') b₀ events b) :
    ∀ op out mid, .driver op out mid ∈ events → Overwrites out → mid = .off := by
  suffices hinv : PowerInv b ∧
      ∀ op out mid, .driver op out mid ∈ events → Overwrites out → mid = .off from hinv.2
  refine Trace.history_invariant (I := fun events b => PowerInv b ∧
    ∀ op out mid, .driver op out mid ∈ events → Overwrites out → mid = .off)
    ⟨fun _ => hoff, by simp⟩ ?_ h
  rintro events c e c' - ⟨hinv, hpast⟩ ⟨hcond, hstep⟩
  refine ⟨hinv.step hcond hstep, fun op out mid hmem hover => ?_⟩
  rcases List.mem_append.mp hmem with hmem | hmem
  · exact hpast op out mid hmem hover
  · rw [List.mem_singleton] at hmem
    subst hmem
    cases hstep with
    | driver step _ _ before _ _ _ =>
      have hp := hinv (overwrites_unattempted step hover)
      dsimp only at hp
      subst hp
      exact Progress.of_off before

section Runs

theorem PowerStep.quiet {cfg : Config} {w w' : World} {op : Op} {out : Output} {p : Power}
    (step : Step cfg w (op, out) w') (reading : ∀ a, affinityOf op = some a → p.Reports a)
    (peer : ∀ shared status, op ≠ .peer shared status) (hnone : .cpuOn 0 ∉ out.effects) :
    PowerStep cfg ⟨w, p⟩ (.driver op out p) ⟨w', p⟩ :=
  .driver step reading (fun shared status h => absurd h (peer shared status)) .refl .refl
    (fun h => absurd h hnone) fun _ => rfl

theorem PowerStep.launch {cfg : Config} {w w' : World} {count : ℕ} {now : U64} {out : Output}
    (step : Step cfg w (.startStore true count affinityOff 0 now, out) w')
    (hsome : .cpuOn 0 ∈ out.effects) :
    PowerStep cfg ⟨w, .off⟩ (.driver (.startStore true count affinityOff 0 now) out .off)
      ⟨w', .lagging⟩ :=
  .driver step (fun a h => by cases h; exact ⟨by decide, by decide⟩)
    (fun shared status h => by cases h) .refl .refl (fun _ => ⟨rfl, rfl⟩)
    fun h => absurd hsome h

def uploaded : Output × World := probedWorld.ran (imageWrite board 0 [1, 2, 3, 4] probedWorld.driver)

def launched : Output × World :=
  uploaded.2.ran (startStore board true 5 affinityOff 0 100 uploaded.2.driver)

/-- The first start: the page is cleared while CPU3 is off. -/
theorem overwrites_only_when_off_first_start :
    ∃ events b, Trace (fun b e b' => NoEarlyRearm b e ∧ PowerStep board b e b')
        ⟨probedWorld, .off⟩ events b ∧ b.power = .lagging ∧
      (∃ op out mid, .driver op out mid ∈ events ∧ .controlPageCleared ∈ out.effects) ∧
      ∀ op out mid, .driver op out mid ∈ events → Overwrites out → mid = .off := by
  have htrace : Trace (fun b e b' => NoEarlyRearm b e ∧ PowerStep board b e b')
      ⟨probedWorld, .off⟩
      [.driver (.imageWrite 0 [1, 2, 3, 4]) uploaded.1 .off,
        .driver (.startStore true 5 affinityOff 0 100) launched.1 .off] ⟨launched.2, .lagging⟩ := by
    refine .cons ⟨fun _ _ _ _ h => (by cases h),
      .quiet rfl (fun a h => by cases h) (fun _ _ h => by cases h) ?_⟩
      (.single ⟨fun _ _ _ _ h => (by cases h), .launch rfl ?_⟩)
    all_goals decide +kernel
  refine ⟨_, _, htrace, rfl, ?_, overwrites_only_when_off rfl htrace⟩
  exact ⟨_, launched.1, .off, List.mem_cons_of_mem _ List.mem_cons_self, by decide +kernel⟩

def rearmedEarly : Output × World :=
  launched.2.ran (rearmStore board true 5 affinityOff launched.2.driver)

def uploadedAgain : Output × World :=
  rearmedEarly.2.ran (imageWrite board 0 [5, 6, 7, 8] rearmedEarly.2.driver)

def startedAgain : Output × World :=
  uploadedAgain.2.ran (startStore board true 5 affinityOff (-4) 200 uploadedAgain.2.driver)

/-- Both writes of the second round fall on a CPU3 that is starting. -/
theorem overwrites_starting_cpu3 :
    Trace (PowerStep board) ⟨probedWorld, .off⟩
      [.driver (.imageWrite 0 [1, 2, 3, 4]) uploaded.1 .off,
        .driver (.startStore true 5 affinityOff 0 100) launched.1 .off,
        .driver (.rearmStore true 5 affinityOff) rearmedEarly.1 .lagging,
        .driver (.imageWrite 0 [5, 6, 7, 8]) uploadedAgain.1 .lagging,
        .driver (.startStore true 5 affinityOff (-4) 200) startedAgain.1 .lagging]
      ⟨startedAgain.2, .lagging⟩ ∧
    .imageCopied ∈ uploadedAgain.1.effects ∧ .controlPageCleared ∈ startedAgain.1.effects := by
  have hoff : ∀ a, some affinityOff = some a → Power.lagging.Reports a := by
    rintro a ⟨⟩
    exact ⟨by decide, by decide⟩
  refine ⟨.cons (.quiet rfl (fun a h => by cases h) (fun _ _ h => by cases h) ?_)
    (.cons (.launch rfl ?_) (.cons (.quiet rfl hoff (fun _ _ h => by cases h) ?_)
    (.cons (.quiet rfl (fun a h => by cases h) (fun _ _ h => by cases h) ?_)
    (.single (.quiet rfl hoff (fun _ _ h => by cases h) ?_))))), ?_, ?_⟩
  all_goals decide +kernel

end Runs

end Lzamp.System
