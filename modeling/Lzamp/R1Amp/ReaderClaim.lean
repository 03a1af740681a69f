import Lzamp.R1Amp.Requests

namespace Lzamp.R1Amp
open Mailmsg Lib

/-- No reader is woken, and the session does not go offline. -/
structure Unwoken (d d' : Driver) : Prop where
  user : d'.user = d.user
  offline : d'.life.mailmsgState = .offline → d.life.mailmsgState = .offline

/-- All readers are woken, which is what happens when the session goes offline. -/
def Woken (d d' : Driver) : Prop := d'.user = wakeAll d.user ∨ Unwoken d d'

theorem Unwoken.refl (d : Driver) : Unwoken d d := ⟨rfl, id⟩

theorem Woken.refl (d : Driver) : Woken d d := .inr (.refl d)

theorem Unwoken.trans {a b c : Driver} (h : Unwoken a b) (h' : Unwoken b c) : Unwoken a c :=
  ⟨h'.user.trans h.user, fun ho => h.offline (h'.offline ho)⟩

theorem Unwoken.trans_woken {a b c : Driver} (h : Unwoken a b) (h' : Woken b c) : Woken a c := by
  rcases h' with hwake | hquiet
  · exact .inl (by rw [hwake, h.user])
  · exact .inr (h.trans hquiet)

theorem Woken.then_live {a b c : Driver} (h : Woken a b) (huser : c.user = b.user)
    (hlive : c.life.mailmsgState ≠ .offline) : Woken a c := by
  rcases h with hwake | hquiet
  · exact .inl (huser.trans hwake)
  · exact .inr ⟨huser.trans hquiet.user, fun ho => absurd ho hlive⟩

theorem Woken.congr {a b c : Driver} (h : Woken a b) (huser : c.user = b.user)
    (hstate : c.life.mailmsgState = b.life.mailmsgState) : Woken a c := by
  rcases h with hwake | hquiet
  · exact .inl (huser.trans hwake)
  · exact .inr ⟨huser.trans hquiet.user, fun ho => hquiet.offline (hstate ▸ ho)⟩

theorem woken_refreshAffinity (a : Int) (d : Driver) : Woken d (refreshAffinityLocked a d) := by
  rcases refreshAffinity_cases a d with h | ⟨-, -, -, -, h⟩
  · rw [h]
    exact .inr ⟨rfl, id⟩
  · rw [h]
    exact .inl rfl

theorem woken_affinityWork (a : Int) (d : Driver) : Woken d (affinityWork a d) := by
  have h := woken_refreshAffinity a { d with life := { d.life with
    affinityMonitorCount := d.life.affinityMonitorCount + 1 } }
  have hcount : Unwoken d { d with life := { d.life with
    affinityMonitorCount := d.life.affinityMonitorCount + 1 } } := ⟨rfl, id⟩
  have hall := hcount.trans_woken h
  unfold affinityWork
  split
  all_goals first
    | exact .refl d
    | split_ifs <;> exact hall.congr rfl rfl

theorem woken_lifecycleTimeoutWork (now : U64) (a : Int) (d : Driver) :
    Woken d (mailmsgLifecycleTimeoutWork now a d) := by
  have h := refreshAffinity_cases a d
  unfold mailmsgLifecycleTimeoutWork
  dsimp only
  split_ifs with hidle hearly hready hoffline
  · exact .refl d
  · exact .refl d
  · exact woken_refreshAffinity a d
  · rcases h with h | ⟨-, -, -, -, h⟩
    · exact .inl (by rw [h]; rfl)
    · exact absurd (by rw [h]; rfl) hoffline
  · exact .inl rfl

theorem woken_startStore (cfg : Config) (isStart : Bool) (count : ℕ) (affinity cpuOn : Int)
    (now : U64) (d : Driver) :
    Woken d (startStore cfg isStart count affinity cpuOn now d).driver := by
  have h := woken_refreshAffinity affinity d
  unfold startStore startSession
  dsimp only
  split_ifs
  · exact .refl d
  · exact .refl d
  · exact .refl d
  · exact .refl d
  · exact h
  · exact h.congr rfl rfl
  · refine h.then_live rfl ?_
    simp only [launched]
    split_ifs
    · exact (by decide : SessionState.unarmed ≠ .offline)
    · exact (by decide : SessionState.starting ≠ .offline)

theorem woken_rearmStore (cfg : Config) (isRearm : Bool) (count : ℕ) (affinity : Int)
    (d : Driver) : Woken d (rearmStore cfg isRearm count affinity d).driver := by
  have h := woken_refreshAffinity affinity d
  unfold rearmStore
  dsimp only
  split_ifs
  · exact .refl d
  · exact .refl d
  · exact .refl d
  · exact .refl d
  · exact h
  · exact h
  · exact h.then_live rfl (by decide : SessionState.unarmed ≠ .offline)

theorem woken_stopStore (cfg : Config) (isStop : Bool) (count : ℕ) (now : U64) (d : Driver) :
    Woken d (mailmsgStopStore cfg isStop count now d).driver := by
  unfold mailmsgStopStore sendStopRequest
  dsimp only
  split_ifs
  · exact .refl d
  · exact .refl d
  · exact .refl d
  · exact .refl d
  all_goals exact .inr ⟨rfl, fun ho => by cases ho⟩

/-- A round of `control_work` wakes the readers only when it leaves. -/
def RoundWakes (d : Driver) : Round → Prop
  | .again d' _ => Unwoken d d'
  | .leave d' _ => Woken d d'

theorem controlRound_wakes (cfg : Config) (now rearm : U64) (d : Driver) :
    RoundWakes d (controlRound cfg now rearm d) := by
  have herror := controlError_life (d.received (endpointReceive d.endpoint d.shared prioCritical
    Message.zero)) (endpointReceive d.endpoint d.shared prioCritical Message.zero).ret
  unfold controlRound controlFrame
  dsimp only
  split_ifs
  · exact .inr ⟨rfl, id⟩
  · exact ⟨rfl, id⟩
  · exact .inr ⟨rfl, fun ho => herror.1.symm.trans ho⟩
  · exact ⟨rfl, fun ho => herror.1.symm.trans ho⟩
  · exact .inl rfl
  · exact .inr ⟨rfl, fun ho => by cases ho⟩
  · exact ⟨rfl, id⟩
  · exact ⟨rfl, id⟩
  · exact .inr ⟨rfl, id⟩
  · exact .inr ⟨rfl, fun ho => by cases ho⟩

theorem woken_controlLoop {cfg : Config} {clock : ℕ → U64} {fuel i : ℕ} {d d' : Driver}
    {log es : List Effect} (h : controlLoop cfg clock fuel i d log = some (d', es)) :
    Woken d d' := by
  refine controlLoop_rule (P := fun d₁ _ => Unwoken d d₁) (Q := fun d' _ => Woken d d') ?_ ?_
    (.refl d) h
  · intro now rearm d₁ _ d₂ es₂ hbefore hround
    have hnext := controlRound_wakes cfg now rearm d₁
    rw [hround] at hnext
    exact hbefore.trans hnext
  · intro now rearm d₁ _ d₂ es₂ hbefore hround
    have hlast := controlRound_wakes cfg now rearm d₁
    rw [hround] at hlast
    exact hbefore.trans_woken hlast

theorem lifecycle_woken {cfg : Config} {w w' : World} {op : Op} {out : Output}
    (hop : op.isLifecycle = true) (h : exec cfg w op = some (out, w')) :
    Woken w.driver w'.driver := by
  -- every operation wakes all readers or does not take the session offline
  cases op with
  | imageWrite off buf =>
    cases h
    change Woken w.driver (imageWrite cfg off buf w.driver).driver
    unfold imageWrite
    dsimp only
    split_ifs <;> exact .inr ⟨rfl, id⟩
  | startStore isStart count affinity cpuOn now =>
    cases h
    exact woken_startStore cfg isStart count affinity cpuOn now w.driver
  | rearmStore isRearm count affinity =>
    cases h
    exact woken_rearmStore cfg isRearm count affinity w.driver
  | stopStore isStop count now =>
    cases h
    exact woken_stopStore cfg isStop count now w.driver
  | controlWork start clock fuel =>
    simp only [exec, Option.map_eq_some_iff] at h
    obtain ⟨r, hr, heq⟩ := h
    cases heq
    unfold mailmsgControlWork at hr
    split_ifs at hr
    · cases hr
      exact .refl _
    · cases hr
      exact .inl rfl
    · exact woken_controlLoop hr
  | lifecycleTimeoutWork now affinity =>
    cases h
    exact woken_lifecycleTimeoutWork now affinity w.driver
  | affinityWork affinity =>
    cases h
    exact woken_affinityWork affinity w.driver
  | affinityStateShow affinity =>
    cases h
    change Woken w.driver (affinityStateShow cfg affinity w.driver).driver
    unfold affinityStateShow
    split_ifs
    · exact .refl _
    · exact woken_refreshAffinity affinity w.driver
  | _ => simp [Op.isLifecycle] at hop

theorem readers_of_woken {d d' : Driver} (h : Woken d d') (p : Priority) :
    (d'.user p).readerOpenCount = (d.user p).readerOpenCount := by
  rcases h with hwake | hquiet
  · rw [hwake]
    rfl
  · rw [hquiet.user]

section Channels

variable (d : Driver)

theorem user_userReadTry (nonblock copyFault : Bool) (file : UserFile) :
    (mailmsgUserReadTry nonblock copyFault file d).2.user = d.user := by
  unfold mailmsgUserReadTry
  dsimp only
  split_ifs <;> rfl

variable {d}

theorem user_responseShow {fuel : ℕ} {d' : Driver} {lines : List ResponseLine}
    (h : mailmsgResponseShow fuel d = some (d', lines)) : d'.user = d.user :=
  responseShow_rule (P := fun d₁ => d₁.user = d.user) (fun _ _ hd => hd) rfl h

end Channels

/-- The open files of a channel that hold its reader role. -/
def World.claims (w : World) (p : Priority) : ℕ :=
  w.files.countP fun f => f.channel = p ∧ f.readerClaimed

/-- Files have different names, a file with a read under way holds the role, and the counter of a
channel is the number of its holders. -/
structure ReadersInv (w : World) : Prop where
  ids : (w.files.map (·.id)).Nodup
  claimed : ∀ f ∈ w.files, f.reads ≠ [] → f.readerClaimed = true
  count : ∀ p, (w.driver.user p).readerOpenCount = w.claims p
  single : ∀ p, w.claims p ≤ 1

theorem countP_replace {α : Type} [DecidableEq α] {l : List α} {a b : α} (hnodup : l.Nodup)
    (ha : a ∈ l) (q : α → Bool) :
    (l.map fun x => if x = a then b else x).countP q + (if q a then 1 else 0) =
      l.countP q + if q b then 1 else 0 := by
  induction l with
  | nil => cases ha
  | cons x l ih =>
    obtain ⟨hx, hl⟩ := List.nodup_cons.mp hnodup
    by_cases hxa : x = a
    · subst hxa
      have hsame : (l.map fun y => if y = x then b else y) = l := by
        refine (List.map_congr_left fun y hy => ?_).trans (List.map_id l)
        exact if_neg fun he : y = x => hx (he ▸ hy)
      simp only [List.map_cons, if_true, List.countP_cons, hsame]
      omega
    · have hmem : a ∈ l := (List.mem_cons.mp ha).resolve_left (Ne.symm hxa)
      have := ih hl hmem
      simp only [List.map_cons, if_neg hxa, List.countP_cons]
      omega

theorem map_id_setFile {w : World} {file file' : UserFile} (hid : file'.id = file.id) :
    (w.setFile file file').files.map (·.id) = w.files.map (·.id) := by
  rw [World.setFile, List.map_map]
  refine List.map_congr_left fun f _ => ?_
  by_cases hf : f = file
  · simp [hf, hid]
  · simp [hf]

theorem ReadersInv.nodup {w : World} (h : ReadersInv w) : w.files.Nodup := h.ids.of_map _

theorem ReadersInv.eq_of_claimed {w : World} (h : ReadersInv w) {f g : UserFile}
    (hf : f ∈ w.files) (hg : g ∈ w.files) (hfc : f.readerClaimed = true)
    (hgc : g.readerClaimed = true) (hch : f.channel = g.channel) : f = g := by
  by_contra hne
  have hcount := List.countP_eq_length_filter (l := w.files)
    (p := fun f' => f'.channel = g.channel ∧ f'.readerClaimed)
  have hsub : [f, g].Subperm (w.files.filter fun f' => f'.channel = g.channel ∧ f'.readerClaimed) := by
    refine List.subperm_of_subset (by simp [hne]) fun x hx => ?_
    rcases List.mem_pair.mp hx with rfl | rfl
    · exact List.mem_filter.mpr ⟨hf, by simp [hfc, hch]⟩
    · exact List.mem_filter.mpr ⟨hg, by simp [hgc]⟩
  have hlen := hsub.length_le
  have hsingle := h.single g.channel
  rw [World.claims] at hsingle
  simp only [List.length_cons, List.length_nil] at hlen
  omega

theorem ReadersInv.setFile {w : World} (h : ReadersInv w) {file file' : UserFile} {d : Driver}
    (hfile : file ∈ w.files) (hid : file'.id = file.id) (hchannel : file'.channel = file.channel)
    (hclaim : file'.readerClaimed = file.readerClaimed)
    (hreads : file'.reads ≠ [] → file.reads ≠ [] ∨ file'.readerClaimed = true)
    (huser : ∀ p, (d.user p).readerOpenCount = (w.driver.user p).readerOpenCount) :
    ReadersInv ((w.setFile file file').withDriver d) := by
  have hclaims : ∀ p, ((w.setFile file file').withDriver d).claims p = w.claims p := by
    intro p
    have hreplace := countP_replace (b := file') h.nodup hfile
      fun f => decide (f.channel = p ∧ f.readerClaimed = true)
    rw [hchannel, hclaim] at hreplace
    exact Nat.add_right_cancel hreplace
  refine ⟨?_, ?_, fun p => ?_, fun p => ?_⟩
  · change ((w.setFile file file').files.map (·.id)).Nodup
    rw [map_id_setFile hid]
    exact h.ids
  · intro f hf hfreads
    obtain ⟨g, hg, rfl⟩ := List.mem_map.mp hf
    split_ifs at hfreads ⊢ with hgf
    · rcases hreads hfreads with hold | hnew
      · rw [hclaim]
        exact h.claimed file hfile hold
      · exact hnew
    · exact h.claimed g hg hfreads
  · rw [hclaims]
    exact (huser p).trans (h.count p)
  · rw [hclaims]
    exact h.single p

theorem ReadersInv.claim {w : World} (h : ReadersInv w) {file : UserFile} {reads : List ReadPhase}
    (hfile : file ∈ w.files) (hunclaimed : file.readerClaimed = false)
    (hfree : (w.driver.user file.channel).readerOpenCount = 0) :
    ReadersInv ((w.setFile file { file with readerClaimed := true, reads := reads }).withDriver
      (w.driver.modifyUser file.channel fun c =>
        { c with readerOpenCount := c.readerOpenCount + 1 })) := by
  set file' : UserFile := { file with readerClaimed := true, reads := reads } with hfile'
  set w' := (w.setFile file file').withDriver (w.driver.modifyUser file.channel fun c =>
    { c with readerOpenCount := c.readerOpenCount + 1 }) with hw'
  -- the counter is zero, so by the invariant no open file holds the claim
  have hnone : w.claims file.channel = 0 := by
    have hcount := h.count file.channel
    rw [hfree] at hcount
    exact_mod_cast hcount.symm
  -- replacing one file changes the number of claims by that file alone
  have hclaims : ∀ p, w'.claims p = w.claims p + if p = file.channel then 1 else 0 := by
    intro p
    have hreplace := countP_replace (b := file') h.nodup hfile
      fun f => decide (f.channel = p ∧ f.readerClaimed = true)
    simp only [hunclaimed, hfile', Bool.false_eq_true, and_false, decide_false, if_false,
      Nat.add_zero, and_true, decide_eq_true_eq] at hreplace
    simp only [eq_comm (a := p)]
    exact hreplace
  have hids : (w.setFile file file').files.map (·.id) = w.files.map (·.id) := map_id_setFile rfl
  refine ⟨?_, ?_, fun p => ?_, fun p => ?_⟩
  · change ((w.setFile file file').files.map (·.id)).Nodup
    rw [hids]
    exact h.ids
  · intro f hf hfreads
    obtain ⟨g, hg, rfl⟩ := List.mem_map.mp hf
    split_ifs at hfreads ⊢ with hgf
    · rfl
    · exact h.claimed g hg hfreads
  · rw [hclaims]
    change (Function.update w.driver.user file.channel _ p).readerOpenCount = _
    by_cases hp : p = file.channel
    · subst hp
      rw [Function.update_self, if_pos rfl]
      have hcount := h.count file.channel
      push_cast
      exact congrArg (· + 1) hcount
    · rw [Function.update_of_ne hp, if_neg hp]
      exact h.count p
  · rw [hclaims]
    split_ifs with hp
    · rw [hp, hnone]
    · exact h.single p

theorem ReadersInv.claimReader {w : World} (h : ReadersInv w) {file : UserFile}
    (hfile : file ∈ w.files) (hret : (mailmsgUserClaimReader file w.driver).1 = 0)
    (reads : List ReadPhase) :
    ReadersInv ((w.setFile file
      { (mailmsgUserClaimReader file w.driver).2.1 with reads := reads }).withDriver
        (mailmsgUserClaimReader file w.driver).2.2) := by
  unfold mailmsgUserClaimReader at hret ⊢
  split_ifs at hret ⊢ with hclaimed hbusy
  · exact h.setFile hfile rfl rfl rfl (fun _ => .inr hclaimed) fun _ => rfl
  · exact absurd hret (by decide : -ebusy ≠ 0)
  · exact h.claim hfile (Bool.eq_false_iff.mpr hclaimed) (not_not.mp hbusy)

theorem userPoll_snd (file : UserFile) (d : Driver) :
    (mailmsgUserPoll file d).2 = (mailmsgUserClaimReader file d).2 := by
  unfold mailmsgUserPoll
  dsimp only
  split_ifs <;> rfl

theorem ReadersInv.poll {w : World} (h : ReadersInv w) {file : UserFile} (hfile : file ∈ w.files) :
    ReadersInv ((w.setFile file (mailmsgUserPoll file w.driver).2.1).withDriver
      (mailmsgUserPoll file w.driver).2.2) := by
  rw [userPoll_snd]
  by_cases hret : (mailmsgUserClaimReader file w.driver).1 = 0
  · exact h.claimReader hfile hret (mailmsgUserClaimReader file w.driver).2.1.reads
  · unfold mailmsgUserClaimReader at hret ⊢
    split_ifs at hret ⊢
    · exact absurd rfl hret
    · exact h.setFile hfile rfl rfl rfl .inl fun _ => rfl
    · exact absurd rfl hret

theorem ReadersInv.release {w : World} (h : ReadersInv w) {file : UserFile}
    (hfile : file ∈ w.files) :
    ReadersInv { driver := mailmsgUserRelease file w.driver, files := w.files.erase file } := by
  set w' : World := { driver := mailmsgUserRelease file w.driver, files := w.files.erase file }
  have hclaims : ∀ p, w'.claims p =
      w.claims p - if file.channel = p ∧ file.readerClaimed = true then 1 else 0 := by
    intro p
    have herase := List.countP_erase
      (fun f : UserFile => decide (f.channel = p ∧ f.readerClaimed = true)) w.files file
    simp only [hfile, true_and, decide_eq_true_eq] at herase
    exact herase
  refine ⟨h.ids.sublist (List.erase_sublist.map _), ?_, fun p => ?_, fun p => ?_⟩
  · exact fun f hf hreads => h.claimed f (List.mem_of_mem_erase hf) hreads
  · have hcount := h.count p
    rw [hclaims]
    change ((mailmsgUserRelease file w.driver).user p).readerOpenCount = _
    unfold mailmsgUserRelease
    by_cases hclaimed : file.readerClaimed = true
    · have hholds : 0 < w.claims file.channel :=
        List.countP_pos_iff.mpr ⟨file, hfile, by simp [hclaimed]⟩
      rw [if_pos hclaimed]
      change (Function.update w.driver.user file.channel _ p).readerOpenCount = _
      by_cases hp : p = file.channel
      · subst hp
        rw [Function.update_self, if_pos ⟨rfl, hclaimed⟩]
        dsimp only
        omega
      · rw [Function.update_of_ne hp, if_neg fun hch => hp hch.1.symm]
        exact hcount
    · rw [if_neg hclaimed, if_neg fun hch => hclaimed hch.2]
      exact hcount
  · have hsingle := h.single p
    rw [hclaims]
    omega

theorem ReadersInv.congr {w w' : World} (h : ReadersInv w) (hfiles : w'.files = w.files)
    (huser : ∀ p, (w'.driver.user p).readerOpenCount = (w.driver.user p).readerOpenCount) :
    ReadersInv w' := by
  have hclaims : ∀ p, w'.claims p = w.claims p := fun p => by rw [World.claims, hfiles]; rfl
  refine ⟨hfiles ▸ h.ids, hfiles ▸ h.claimed, fun p => ?_, fun p => ?_⟩
  · rw [huser, hclaims]
    exact h.count p
  · rw [hclaims]
    exact h.single p

theorem ReadersInv.execFile {w w' : World} {op : Op} {out : Output} (hw : ReadersInv w)
    (h : execFile w op = some (out, w')) : ReadersInv w' := by
  cases op with
  | userRelease file =>
    simp only [R1Amp.execFile] at h
    split_ifs at h with hfile
    cases h
    exact hw.release hfile.1
  | userReadEnter file count =>
    simp only [R1Amp.execFile] at h
    split_ifs at h with hfile hcount hret <;> cases h
    · exact hw
    · exact hw
    · exact hw.claimReader hfile (not_not.mp hret) _
  | userReadSample file i =>
    simp only [R1Amp.execFile] at h
    split_ifs at h with hfile
    cases h
    refine hw.setFile hfile.1 rfl rfl rfl (fun _ => .inl ?_) fun _ => rfl
    intro hnil
    rw [hnil] at hfile
    cases hfile.2
  | userReadTry file i nonblock copyFault =>
    have huser := user_userReadTry w.driver nonblock copyFault file
    simp only [R1Amp.execFile] at h
    split_ifs at h with hfile
    split at h
    case h_1 generation hread =>
      -- a read that is there to be tried entered before, so its file was claimed then
      have hreads : file.reads ≠ [] := by
        intro hnil
        rw [hnil] at hread
        cases hread
      split at h <;> cases h <;>
        exact hw.setFile hfile rfl rfl rfl (fun _ => .inl hreads) fun p => by rw [huser]
    · cases h
  | userReadWake file i signalled =>
    simp only [R1Amp.execFile] at h
    split_ifs at h with hfile hsignal
    · split at h
      case h_1 generation hread =>
        cases h
        refine hw.setFile hfile rfl rfl rfl (fun _ => .inl ?_) fun _ => rfl
        intro hnil
        rw [hnil] at hread
        cases hread
      · cases h
    · split at h
      case h_1 generation hread =>
        split_ifs at h
        cases h
        refine hw.setFile hfile rfl rfl rfl (fun _ => .inl ?_) fun _ => rfl
        intro hnil
        rw [hnil] at hread
        cases hread
      · cases h
  | userWrite file count frame =>
    simp only [R1Amp.execFile] at h
    split_ifs at h
    cases h
    exact hw.congr rfl fun p =>
      congrArg (fun user => (user p).readerOpenCount) (submits_userWrite count frame file _).user
  | userPoll file =>
    simp only [R1Amp.execFile] at h
    split_ifs at h with hfile
    cases h
    exact hw.poll hfile
  | _ => simp [R1Amp.execFile] at h

theorem ReadersInv.opened {w : World} (h : ReadersInv w) {id : ℕ} {p : Priority} {d : Driver}
    (hid : ∀ f ∈ w.files, f.id ≠ id)
    (huser : ∀ q, (d.user q).readerOpenCount = (w.driver.user q).readerOpenCount) :
    ReadersInv { driver := d, files := ⟨id, p, false, []⟩ :: w.files } := by
  have hclaims : ∀ q, World.claims { driver := d, files := ⟨id, p, false, []⟩ :: w.files } q =
      w.claims q := fun q => List.countP_cons_of_neg (by simp)
  refine ⟨?_, ?_, fun q => ?_, fun q => ?_⟩
  · refine List.nodup_cons.mpr ⟨fun hmem => ?_, h.ids⟩
    obtain ⟨f, hf, heq⟩ := List.mem_map.mp hmem
    exact hid f hf heq
  · intro f hf hreads
    rcases List.mem_cons.mp hf with rfl | hf
    · exact absurd rfl hreads
    · exact h.claimed f hf hreads
  · rw [hclaims]
    exact (huser q).trans (h.count q)
  · rw [hclaims]
    exact h.single q

theorem ReadersInv.step {cfg : Config} {w w' : World} {label : Op × Output} (hw : ReadersInv w)
    (h : Step cfg w label w') : ReadersInv w' := by
  obtain ⟨op, out⟩ := label
  -- the lifecycle wakes the readers but neither opens, closes nor claims a file
  cases hop : op.isLifecycle with
  | true => exact hw.congr (lifecycle_files hop h).1 (readers_of_woken (lifecycle_woken hop h))
  | false =>
    cases op with
    | userOpen id p allocated =>
      have huser : ∀ q, ((mailmsgUserOpen allocated w.driver).2.user q).readerOpenCount =
          (w.driver.user q).readerOpenCount := by
        intro q
        unfold mailmsgUserOpen
        dsimp only
        split_ifs <;> rfl
      simp only [Step, exec] at h
      split_ifs at h with hid hret
      · cases h
        exact hw.congr rfl huser
      · cases h
        exact hw.opened hid huser
    | doorbell | mailmsgPing | mailmsgCrcInject | mailmsgNotifyInject | mailmsgQueuePush =>
      obtain ⟨hsubmits, hfiles, -⟩ := exec_hook rfl h
      exact hw.congr hfiles fun p => by rw [hsubmits.user]
    | mailmsgResponse fuel =>
      simp only [Step, exec, Option.map_eq_some_iff] at h
      obtain ⟨r, hr, heq⟩ := h
      cases heq
      exact hw.congr rfl fun p => by rw [← user_responseShow hr]; rfl
    | mboxRx p message =>
      cases h
      refine hw.congr rfl fun q => ?_
      change (Function.update w.driver.user p _ q).readerOpenCount = _
      by_cases hq : q = p
      · rw [hq, Function.update_self]
      · rw [Function.update_of_ne hq]
    | peer shared status =>
      cases h
      exact hw.congr rfl fun _ => rfl
    | userRelease | userReadEnter | userReadSample | userReadTry | userReadWake | userWrite
    | userPoll =>
      simp only [Step, exec] at h
      exact hw.execFile h
    | _ => simp [Op.isLifecycle] at hop

theorem World.Probed.readersInv {w : World} (h : w.Probed) : ReadersInv w := by
  have hclaims : ∀ p, w.claims p = 0 := fun p => by rw [World.claims, h.files]; rfl
  refine ⟨by simp [h.files], by simp [h.files], fun p => ?_, fun p => ?_⟩
  · rw [hclaims, h.readers]
    rfl
  · rw [hclaims]
    exact Nat.zero_le 1

theorem Reachable.readersInv {cfg : Config} {w : World} (h : Reachable cfg w) : ReadersInv w := by
  obtain ⟨w₀, labels, h₀, htrace⟩ := h
  exact htrace.invariant (fun _ _ _ hw hstep => ReadersInv.step hw hstep) h₀.readersInv

end Lzamp.R1Amp
