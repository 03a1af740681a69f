import Lzamp.R1Amp.ExclusiveReader

namespace Lzamp.R1Amp
open Mailmsg Lib

def World.rxGeneration (w : World) (p : Priority) : U32 := (w.driver.user p).rxGeneration

/-- All readers are woken, or none is and the session does not go offline. -/
def Wakes (w w' : World) : Prop :=
  (∀ p, w'.rxGeneration p = w.rxGeneration p + 1) ∨
    ((∀ p, w'.rxGeneration p = w.rxGeneration p) ∧
      (w'.driver.life.mailmsgState = .offline → w.driver.life.mailmsgState = .offline))

theorem Woken.wakes {w w' : World} (h : Woken w.driver w'.driver) : Wakes w w' := by
  rcases h with hwake | hquiet
  · exact .inl fun p => congrArg UserChannel.rxGeneration (congrFun hwake p)
  · exact .inr ⟨fun p => congrArg UserChannel.rxGeneration (congrFun hquiet.user p),
      hquiet.offline⟩

theorem rxGeneration_claimReader (file : UserFile) (d : Driver) (p : Priority) :
    ((mailmsgUserClaimReader file d).2.2.user p).rxGeneration = (d.user p).rxGeneration := by
  unfold mailmsgUserClaimReader
  split_ifs
  · rfl
  · rfl
  · change (Function.update d.user file.channel _ p).rxGeneration = _
    by_cases hp : p = file.channel
    · rw [hp, Function.update_self]
    · rw [Function.update_of_ne hp]

theorem rxGeneration_userRelease (file : UserFile) (d : Driver) (p : Priority) :
    ((mailmsgUserRelease file d).user p).rxGeneration = (d.user p).rxGeneration := by
  unfold mailmsgUserRelease
  dsimp only
  split_ifs
  · change (Function.update d.user file.channel _ p).rxGeneration = _
    by_cases hp : p = file.channel
    · rw [hp, Function.update_self]
    · rw [Function.update_of_ne hp]
  · rfl

theorem rxGeneration_execFile {w w' : World} {op : Op} {out : Output}
    (h : execFile w op = some (out, w')) (p : Priority) : w'.rxGeneration p = w.rxGeneration p := by
  cases op with
  | userRelease file =>
    simp only [execFile] at h
    split_ifs at h
    cases h
    exact rxGeneration_userRelease file w.driver p
  | userReadEnter file count =>
    simp only [execFile] at h
    split_ifs at h <;> cases h
    · rfl
    · rfl
    · exact rxGeneration_claimReader file w.driver p
  | userReadSample file i =>
    simp only [execFile] at h
    split_ifs at h
    cases h
    rfl
  | userReadTry file i nonblock copyFault =>
    have hexec : exec board w (.userReadTry file i nonblock copyFault) = some (out, w') := h
    obtain ⟨-, -, hdriver⟩ := exec_readTry hexec
    rw [World.rxGeneration, hdriver, user_userReadTry]
    rfl
  | userReadWake file i signalled =>
    simp only [execFile] at h
    split_ifs at h
    · split at h <;> cases h
      rfl
    · split at h
      · split_ifs at h
        cases h
        rfl
      · cases h
  | userWrite file count frame =>
    simp only [execFile] at h
    split_ifs at h
    cases h
    exact congrArg (fun user => (user p).rxGeneration)
      (submits_userWrite count frame file w.driver).user
  | userPoll file =>
    simp only [execFile, userPoll_snd] at h
    split_ifs at h
    cases h
    exact rxGeneration_claimReader file w.driver p
  | _ => simp [execFile] at h

theorem exec_wakes {cfg : Config} {w w' : World} {op : Op} {out : Output}
    (hrx : ∀ p message, op ≠ .mboxRx p message) (h : exec cfg w op = some (out, w')) :
    Wakes w w' := by
  cases hop : op.isLifecycle with
  | true => exact (lifecycle_woken hop h).wakes
  | false =>
    have hlife := (exec_dataPlane hop h).keeps.life
    refine .inr ⟨fun p => ?_, fun ho => hlife ▸ ho⟩
    have huser : ∀ user, user = w.driver.user → (user p).rxGeneration = w.rxGeneration p := by
      rintro _ rfl
      rfl
    cases op with
    | userOpen id q allocated =>
      simp only [exec, mailmsgUserOpen] at h
      split_ifs at h <;> cases h <;> rfl
    | doorbell | mailmsgPing | mailmsgCrcInject | mailmsgNotifyInject | mailmsgQueuePush =>
      exact huser _ (exec_hook rfl h).1.user
    | mailmsgResponse fuel =>
      simp only [exec, Option.map_eq_some_iff] at h
      obtain ⟨r, hr, heq⟩ := h
      cases heq
      exact huser _ (user_responseShow hr)
    | mboxRx q message => exact absurd rfl (hrx q message)
    | peer shared status =>
      cases h
      rfl
    | userRelease | userReadEnter | userReadSample | userReadTry | userReadWake | userWrite
    | userPoll =>
      simp only [exec] at h
      exact rxGeneration_execFile h p
    | _ => simp [Op.isLifecycle] at hop

/-- Frames were only taken from the front of the reverse rings. -/
structure Drains (d d' : Driver) : Prop where
  plays : d'.endpoint.Plays .linux
  replies : ∀ q, (d.shared.cpu3ToLinux q).InRange → (d'.shared.cpu3ToLinux q).InRange ∧
    (d'.shared.cpu3ToLinux q).contents <:+ (d.shared.cpu3ToLinux q).contents

theorem Drains.refl {d : Driver} (h : d.endpoint.Plays .linux) : Drains d d :=
  ⟨h, fun _ hr => ⟨hr, List.suffix_rfl⟩⟩

theorem Drains.trans {a b c : Driver} (h : Drains a b) (h' : Drains b c) : Drains a c := by
  refine ⟨h'.plays, fun q hr => ?_⟩
  obtain ⟨hb, hab⟩ := h.replies q hr
  obtain ⟨hc, hbc⟩ := h'.replies q hb
  exact ⟨hc, hbc.trans hab⟩

theorem drains_received {d : Driver} (h : d.endpoint.Plays .linux) (p : Priority) :
    Drains d (d.received (endpointReceive d.endpoint d.shared p Message.zero)) := by
  refine ⟨h.of_identity (endpointReceive_identity ..), fun q hr => ?_⟩
  change (Shared.rx _ .linux q).InRange ∧ (Shared.rx _ .linux q).contents <:+ _
  rcases endpointReceive_cases h d.shared p Message.zero with ⟨-, hsame⟩ | ⟨hshared, -, -⟩
  · dsimp only [Driver.received]
    rw [hsame]
    exact ⟨hr, List.suffix_rfl⟩
  · dsimp only [Driver.received]
    rw [hshared, Shared.rx_setRx]
    by_cases hq : q = p
    · subst hq
      rw [Function.update_self]
      exact ⟨(ringPop_grows _ _).inRange hr, _, (ringPop_contents hr Message.zero).symm⟩
    · rw [Function.update_of_ne hq]
      exact ⟨hr, List.suffix_rfl⟩

theorem drains_userReadTry {d : Driver} (h : d.endpoint.Plays .linux) (nonblock copyFault : Bool)
    (file : UserFile) : Drains d (mailmsgUserReadTry nonblock copyFault file d).2 := by
  unfold mailmsgUserReadTry
  dsimp only
  split_ifs
  · exact .refl h
  · exact drains_received h file.channel

theorem drains_responseShow {fuel : ℕ} {d d' : Driver} {lines : List ResponseLine}
    (h : d.endpoint.Plays .linux) (hshow : mailmsgResponseShow fuel d = some (d', lines)) :
    Drains d d' := by
  refine responseShow_rule (P := Drains d) (fun p d₁ hd => ?_) (.refl h) hshow
  exact hd.trans (drains_received hd.plays p)

/-- While a file is open in ACTIVE, the reverse rings get no longer by what Linux does. -/
theorem replies_length_le {cfg : Config} {w w' : World} {op : Op} {out : Output} (hw : Busy w)
    (hpeer : ∀ shared status, op ≠ .peer shared status) (h : exec cfg w op = some (out, w'))
    {p : Priority} (hr : (w.driver.shared.cpu3ToLinux p).InRange) :
    (w'.replies p).length ≤ (w.replies p).length := by
  cases hop : op.pops with
  | false =>
    rw [World.replies, reverse_kept hw hop h]
    rfl
  | true =>
    cases op with
    | userReadTry file i nonblock copyFault =>
      obtain ⟨-, -, hdriver⟩ := exec_readTry h
      rw [World.replies, hdriver]
      exact ((drains_userReadTry hw.plays nonblock copyFault file).replies p hr).2.length_le
    | mailmsgResponse fuel =>
      simp only [exec, Option.map_eq_some_iff] at h
      obtain ⟨r, hshow, heq⟩ := h
      cases heq
      exact ((drains_responseShow hw.plays hshow).replies p hr).2.length_le
    | peer shared status => exact absurd rfl (hpeer shared status)
    | _ => cases hop

/-- A pass of `read` that blocks found an ACTIVE session and an empty ring. -/
theorem userReadTry_block {nonblock copyFault : Bool} {file : UserFile} {d : Driver}
    (hplays : d.endpoint.Plays .linux) (hr : (d.shared.cpu3ToLinux file.channel).InRange)
    (h : (mailmsgUserReadTry nonblock copyFault file d).1 = .block) :
    d.life.mailmsgState = .active ∧
      ((mailmsgUserReadTry nonblock copyFault file d).2.shared.cpu3ToLinux
        file.channel).contents = [] := by
  have hempty : ∀ ret message,
      userReadDispatch nonblock copyFault file.channel ret message = .block → ret = ringEmpty := by
    intro ret message hblock
    unfold userReadDispatch at hblock
    split_ifs at hblock with _ _ _ _ hne
    exact not_not.mp hne
  have hsuffix := ((drains_userReadTry hplays nonblock copyFault file).replies _ hr).2
  by_cases hactive : d.life.mailmsgState = .active
  · have hgate : mailmsgDataGateLocked d = 0 := by rw [mailmsgDataGateLocked, hactive]
    rw [mailmsgUserReadTry, if_neg (not_not.mpr hgate)] at h
    have hnil := hr.contents_eq_nil.mpr (endpointReceive_empty hplays _ _ _ (hempty _ _ h))
    rw [hnil] at hsuffix
    exact ⟨hactive, List.suffix_nil.mp hsuffix⟩
  · have hgate := gate_neg hactive
    rw [mailmsgUserReadTry, if_pos hgate.ne] at h
    have hret := hempty _ _ h
    rcases gate_closed hactive with hg | hg | hg | hg <;> rw [hg] at hret <;>
      exact absurd hret (by decide)

end Lzamp.R1Amp
