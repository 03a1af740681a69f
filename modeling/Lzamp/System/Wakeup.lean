import Lzamp.System.Doorbell

namespace Lzamp.System
open Mailmsg Lib Cpu3

variable {π : Type}

/-- The worker will look at ring `p` in this pass, or has scheduled it for the next one. -/
def Worker.WillServe (p : Priority) : Worker → Prop
  | .serving pending todo reschedule =>
    (hasBit pending p = true ∧ p ∈ todo) ∨ hasBit reschedule p = true
  | .draining pending q _ todo reschedule =>
    q = p ∨ (hasBit pending p = true ∧ p ∈ todo) ∨ hasBit reschedule p = true
  | .checking pending q remaining todo reschedule =>
    (q = p ∧ remaining = 0) ∨ (hasBit pending p = true ∧ p ∈ todo) ∨ hasBit reschedule p = true
  | .marking reschedule => hasBit reschedule p = true
  | _ => False

/-- The worker is or will be woken: the semaphore is up, or was taken for a swap still to come, or
someone is about to give it. -/
def WakeComing (s : Link π) : Prop :=
  s.sem = true ∨ s.worker = .taken ∨ s.worker = .giving ∨ ∃ p, s.isr p = .marked

/-- Ring `p` will be looked at. -/
def Covered (s : Link π) (p : Priority) : Prop :=
  hasBit s.a2b.status p = true ∨ (∃ command, s.isr p = .cleared command) ∨
    hasBit s.pending p = true ∨ s.worker.WillServe p

/-- The frames of one ring are handled one after the other when the worker gets to them. -/
structure RingSound (generation : U32) (r : Ring) (tags : List Bool) : Prop where
  inRange : r.InRange
  committed : ∀ m ∈ r.contents, m.commit = m.sequence
  sound : ∀ m ∈ r.contents, Sound generation m
  tags : tags.length = r.contents.length

structure PageInv (s : Link π) : Prop where
  role : s.cpu3.endpoint.role = some .cpu3
  session : endpointSessionValid s.cpu3.endpoint s.cpu3.shared = endpointOk
  linux : s.linux.identity = (some .linux, s.cpu3.endpoint.generation)
  rings : ∀ p, RingSound s.cpu3.endpoint.generation (s.cpu3.shared.linuxToCpu3 p) (s.tags p)

/-- The sender rings only with commands the handler accepts. -/
def Sender.Accepts (a2b : Doorbells) : Sender → Prop
  | .ringing p command _ _ => Accepted p command
  | .commanded p _ _ => Accepted p (a2b.cmd p)
  | _ => True

def Isr.Accepts (a2b : Doorbells) (p : Priority) : Isr → Prop
  | .fired => Accepted p (a2b.cmd p)
  | .read command | .cleared command => Accepted p command
  | _ => True

structure BellInv (s : Link π) : Prop where
  raised : ∀ p, hasBit s.a2b.status p = true → Accepted p (s.a2b.cmd p)
  sender : s.sender.Accepts s.a2b
  isr : ∀ p, (s.isr p).Accepts s.a2b p

structure CoverInv (s : Link π) : Prop where
  covered : ∀ p, true ∈ s.tags p → Covered s p
  awake : ∀ p, hasBit s.pending p = true → WakeComing s

/-- What is queued is sound, a raised bit carries a command that the handler accepts, and someone is
going to look at every ring with a notified frame. -/
structure WakeInv (s : Link π) : Prop where
  page : PageInv s
  bell : BellInv s
  cover : CoverInv s

theorem length_notifyLast (tags : List Bool) : (notifyLast tags).length = tags.length := by
  unfold notifyLast
  split_ifs with h
  · rw [h]
  · have hpos := List.length_pos_iff.mpr h
    simp only [List.length_append, List.length_dropLast, List.length_singleton]
    omega

theorem length_keepTags {tags : List Bool} {depth : ℕ} (h : depth ≤ tags.length) :
    (keepTags tags depth).length = depth := by
  rw [keepTags, List.length_drop]
  omega

theorem RingSound.published {generation : U32} {r : Ring} {tags : List Bool}
    (h : RingSound generation r tags) {m : Message} (hroom : next r.producer ≠ r.consumer)
    (hform : ¬ m.Malformed) (hgen : m.generation = generation) :
    RingSound generation (r.published m) (tags ++ [false]) := by
  have hcontents : (r.published m).contents = r.contents ++ [m.seal] :=
    h.inRange.contents_publish (h.inRange.depth_lt_seven hroom) m.seal
  refine ⟨h.inRange.publish _, ?_, ?_, ?_⟩
  · rw [hcontents]
    intro x hx
    rcases List.mem_append.mp hx with hx | hx
    · exact h.committed x hx
    · rw [List.mem_singleton.mp hx]
      rfl
  · rw [hcontents]
    intro x hx
    rcases List.mem_append.mp hx with hx | hx
    · exact h.sound x hx
    · rw [List.mem_singleton.mp hx]
      exact ⟨frameCheck_seal hform, hgen⟩
  · rw [hcontents, List.length_append, List.length_append, h.tags]
    rfl

theorem RingSound.drained {generation : U32} {r r' : Ring} {tags : List Bool}
    (h : RingSound generation r tags) (hrange : r'.InRange) (hsuffix : r'.contents <:+ r.contents) :
    RingSound generation r' (keepTags tags r'.depth) := by
  refine ⟨hrange, ?_, ?_, ?_⟩
  · exact fun m hm => h.committed m (hsuffix.subset hm)
  · exact fun m hm => h.sound m (hsuffix.subset hm)
  · rw [length_keepTags, r'.length_contents]
    rw [h.tags, ← r'.length_contents]
    exact hsuffix.length_le

theorem PageInv.draining {s : Link π} (h : PageInv s) (p : Priority) :
    Draining s.cpu3 p (s.cpu3.shared.linuxToCpu3 p).contents :=
  ⟨h.role, h.session, (h.rings p).inRange, rfl, (h.rings p).committed⟩

theorem PageInv.congr {s s' : Link π} (h : PageInv s) (hlinux : s'.linux = s.linux)
    (hcpu3 : s'.cpu3 = s.cpu3) (htags : s'.tags = s.tags) : PageInv s' := by
  refine ⟨?_, ?_, ?_, ?_⟩
  · rw [hcpu3]
    exact h.role
  · rw [hcpu3]
    exact h.session
  · rw [hcpu3, hlinux]
    exact h.linux
  · rw [hcpu3, htags]
    exact h.rings

theorem PageInv.notified {s : Link π} (h : PageInv s) (p : Priority) (notifies : Bool) :
    PageInv (s.notified p notifies) := by
  cases notifies with
  | false => exact h
  | true =>
    refine ⟨h.role, h.session, h.linux, fun q => ?_⟩
    have hq := h.rings q
    refine ⟨hq.inRange, hq.committed, hq.sound, ?_⟩
    change (Function.update s.tags p (notifyLast (s.tags p)) q).length = _
    by_cases hqp : q = p
    · subst hqp
      rw [Function.update_self, length_notifyLast]
      exact hq.tags
    · rw [Function.update_of_ne hqp]
      exact hq.tags

/-- A commit is refused, which costs Linux at most a sequence number, or queues a well formed
frame. -/
theorem Link.commit_cases {s : Link π} (hrole : s.linux.role = some .linux) (p : Priority)
    (type : U32) (payload : Option (List U8)) (length : U32) (stopping : Bool) :
    (∃ e : Endpoint, e.identity = s.linux.identity ∧
      s.commit p type payload length stopping = { s with linux := e }) ∨
    ∃ (e : Endpoint) (m : Message), e.identity = s.linux.identity ∧
      m = composeFrame s.linux.generation type (endpointNextSequence s.linux).1 length payload ∧
      ¬ m.Malformed ∧
      next (s.cpu3.shared.linuxToCpu3 p).producer ≠ (s.cpu3.shared.linuxToCpu3 p).consumer ∧
      s.commit p type payload length stopping = { s with
        linux := e
        cpu3 := { s.cpu3 with shared := { s.cpu3.shared with
          linuxToCpu3 := Function.update s.cpu3.shared.linuxToCpu3 p
            ((s.cpu3.shared.linuxToCpu3 p).published m) } }
        sender := .queued p
        stopping := stopping
        tags := Function.update s.tags p (s.tags p ++ [false]) } := by
  unfold Link.commit
  dsimp only
  rcases endpointEnqueue_cases s.linux s.cpu3.shared p type payload length SendResult.zero with
    hq | ⟨role, hp, hq⟩
  · rw [if_pos hq.ret, hq.shared]
    exact Or.inl ⟨_, hq.identity, rfl⟩
  · obtain rfl : EndpointRole.linux = role := Option.some.inj (hrole.symm.trans hq.role_eq)
    rw [if_neg (not_not.mpr hq.ret), hq.shared]
    exact Or.inr ⟨_, _, hq.identity, rfl, hq.wellFormed, hq.room, rfl⟩

theorem PageInv.commit {s : Link π} (h : PageInv s) (p : Priority) (type : U32)
    (payload : Option (List U8)) (length : U32) (stopping : Bool) :
    PageInv (s.commit p type payload length stopping) := by
  rcases Link.commit_cases (congrArg Prod.fst h.linux) p type payload length stopping with
    ⟨e, he, heq⟩ | ⟨e, m, he, hm, hform, hroom, heq⟩
  · rw [heq]
    exact ⟨h.role, h.session, he.trans h.linux, h.rings⟩
  · rw [heq]
    refine ⟨h.role, h.session, he.trans h.linux, fun q => ?_⟩
    by_cases hqp : q = p
    · subst hqp
      dsimp only
      rw [Function.update_self, Function.update_self]
      have hgen : m.generation = s.cpu3.endpoint.generation :=
        (congrArg Message.generation hm).trans (congrArg Prod.snd h.linux)
      exact (h.rings q).published hroom hform hgen
    · dsimp only
      rw [Function.update_of_ne hqp, Function.update_of_ne hqp]
      exact h.rings q

theorem PageInv.served {s : Link π} (h : PageInv s) {p : Priority} {c : State π}
    {q : List Message} (hd : Draining c p q) (ho : OnlyRing p s.cpu3 c)
    (hsuffix : q <:+ (s.cpu3.shared.linuxToCpu3 p).contents) : PageInv (s.served p c) := by
  have hgen : c.endpoint.generation = s.cpu3.endpoint.generation := congrArg Prod.snd ho.identity
  refine ⟨hd.role, hd.session, ?_, fun p' => ?_⟩
  · exact h.linux.trans (by rw [← hgen]; rfl)
  · change RingSound c.endpoint.generation (c.shared.linuxToCpu3 p')
      (Function.update s.tags p (keepTags (s.tags p) (c.shared.linuxToCpu3 p).depth) p')
    rw [hgen]
    by_cases hp : p' = p
    · subst hp
      rw [Function.update_self]
      exact (h.rings p').drained hd.inRange (hd.contents ▸ hsuffix)
    · rw [Function.update_of_ne hp, ho.others p' hp]
      exact h.rings p'

theorem accepted_notification (p : Priority) :
    Accepted p (R1Amp.mailmsgDoorbell ||| channelWord p) := by
  revert p
  decide

theorem accepted_raw (p : Priority) : Accepted p (R1Amp.rawDoorbell ||| channelWord p) := by
  revert p
  decide

theorem Isr.Accepts.imp {a a' : Doorbells} {p : Priority} {isr : Isr} (h : isr.Accepts a p)
    (hcmd : Accepted p (a.cmd p) → Accepted p (a'.cmd p)) : isr.Accepts a' p := by
  cases isr with
  | fired => exact hcmd h
  | _ => exact h

theorem BellInv.notified {s : Link π} (h : BellInv s) (p : Priority) (notifies : Bool) :
    BellInv (s.notified p notifies) := by
  cases notifies with
  | false => exact h
  | true => exact ⟨h.raised, h.sender, h.isr⟩

theorem BellInv.commit {s : Link π} (h : BellInv s) (hrole : s.linux.role = some .linux)
    (p : Priority) (type : U32) (payload : Option (List U8)) (length : U32) (stopping : Bool) :
    BellInv (s.commit p type payload length stopping) := by
  rcases Link.commit_cases hrole p type payload length stopping with
    ⟨e, -, heq⟩ | ⟨e, m, -, -, -, -, heq⟩
  · rw [heq]
    exact ⟨h.raised, h.sender, h.isr⟩
  · rw [heq]
    exact ⟨h.raised, trivial, h.isr⟩

theorem BellInv.writeCmd {s : Link π} (h : BellInv s) {p : Priority} {command : U32}
    (hcommand : Accepted p command) (value : U32) (notifies : Bool) :
    BellInv { s with
      sender := .commanded p value notifies
      a2b := { s.a2b with cmd := Function.update s.a2b.cmd p command } } := by
  refine ⟨fun q hq => ?_, ?_, fun q => ?_⟩
  · -- another doorbell keeps its command; this one holds the accepted command just written
    by_cases hqp : q = p
    · subst hqp
      simpa using hcommand
    · simpa [hqp] using h.raised q hq
  · simpa [Sender.Accepts] using hcommand
  · refine (h.isr q).imp fun hold => ?_
    by_cases hqp : q = p
    · subst hqp
      simpa using hcommand
    · simpa [hqp] using hold

theorem BellInv.raise {s : Link π} (h : BellInv s) {p : Priority}
    (hcommand : Accepted p (s.a2b.cmd p)) (value : U32) : BellInv (s.raise p value) := by
  refine ⟨fun q hq => ?_, trivial, fun q => ?_⟩
  · -- the bit that goes up is over the command written before it; the others were up already
    by_cases hqp : q = p
    · subst hqp
      exact hcommand
    · apply h.raised q
      have hbits : (hasBit s.a2b.status q || decide (p = q)) = true := by
        simpa [Link.raise] using hq
      simpa [Ne.symm hqp] using hbits
  · exact (h.isr q).imp id

theorem BellInv.setIsr {s : Link π} (h : BellInv s) {p : Priority} (isr : Isr)
    (hisr : isr.Accepts s.a2b p) : BellInv (s.setIsr p isr) := by
  refine ⟨h.raised, h.sender, fun q => ?_⟩
  change (Function.update s.isr p isr q).Accepts s.a2b q
  by_cases hqp : q = p
  · subst hqp
    rwa [Function.update_self]
  · rw [Function.update_of_ne hqp]
    exact h.isr q

theorem BellInv.clear {s : Link π} (h : BellInv s) (p : Priority) :
    BellInv { s with a2b := { s.a2b with status := s.a2b.status &&& ~~~ bit p } } := by
  refine ⟨fun q hq => h.raised q ?_, ?_, fun q => (h.isr q).imp id⟩
  · dsimp only at hq
    rw [hasBit_and, Bool.and_eq_true] at hq
    exact hq.1
  · have hold := h.sender
    dsimp only
    cases hsender : s.sender with
    | commanded => rw [hsender] at hold; exact hold
    | ringing => rw [hsender] at hold; exact hold
    | _ => trivial

theorem CoverInv.mono {s s' : Link π} (h : CoverInv s)
    (htags : ∀ p, true ∈ s'.tags p → true ∈ s.tags p)
    (hcover : ∀ p, Covered s p → Covered s' p)
    (hpending : s'.pending = s.pending) (hawake : WakeComing s → WakeComing s') : CoverInv s' where
  covered p hp := hcover p (h.covered p (htags p hp))
  awake p hp := hawake (h.awake p (hpending ▸ hp))

theorem CoverInv.notified {s : Link π} (h : CoverInv s) {p : Priority}
    (hp : hasBit s.a2b.status p = true) (notifies : Bool) : CoverInv (s.notified p notifies) := by
  cases notifies with
  | false => exact h
  | true =>
    refine ⟨fun q hq => ?_, h.awake⟩
    by_cases hqp : q = p
    · subst hqp
      exact Or.inl hp
    · apply h.covered q
      change true ∈ Function.update s.tags p _ q at hq
      rwa [Function.update_of_ne hqp] at hq

theorem CoverInv.commit {s : Link π} (h : CoverInv s) (hrole : s.linux.role = some .linux)
    (p : Priority) (type : U32) (payload : Option (List U8)) (length : U32) (stopping : Bool) :
    CoverInv (s.commit p type payload length stopping) := by
  rcases Link.commit_cases hrole p type payload length stopping with
    ⟨e, -, heq⟩ | ⟨e, m, -, -, -, -, heq⟩
  · rw [heq]
    exact ⟨h.covered, h.awake⟩
  · -- the new frame has not been notified yet
    rw [heq]
    refine h.mono (fun q hq => ?_) (fun q hq => hq) rfl id
    dsimp only at hq
    by_cases hqp : q = p
    · subst hqp
      rw [Function.update_self] at hq
      simpa using hq
    · rwa [Function.update_of_ne hqp] at hq

theorem CoverInv.raise {s : Link π} (h : CoverInv s) (p : Priority) (value : U32) :
    CoverInv (s.raise p value) := by
  refine h.mono (fun q hq => hq) (fun q hq => ?_) rfl id
  refine hq.imp (fun hbit => ?_) id
  change hasBit (s.a2b.status ||| bit p) q = true
  rw [hasBit_or, hbit, Bool.true_or]

theorem CoverInv.setIsr {s : Link π} (h : CoverInv s) {p : Priority} (isr : Isr)
    (hcleared : ∀ command, s.isr p ≠ .cleared command) (hmarked : s.isr p ≠ .marked) :
    CoverInv (s.setIsr p isr) := by
  have hother : ∀ q i, s.isr q = i → s.isr p ≠ i → (s.setIsr p isr).isr q = i := by
    intro q i hq hp
    have hqp : q ≠ p := fun heq => hp (heq ▸ hq)
    exact (Function.update_of_ne hqp _ _).trans hq
  refine h.mono (fun q hq => hq) (fun q hq => ?_) rfl fun hw => ?_
  · rcases hq with hq | ⟨command, hq⟩ | hq
    · exact Or.inl hq
    · exact Or.inr (Or.inl ⟨command, hother q _ hq (hcleared command)⟩)
    · exact Or.inr (Or.inr hq)
  · rcases hw with hw | hw | hw | ⟨q, hq⟩
    · exact Or.inl hw
    · exact Or.inr (Or.inl hw)
    · exact Or.inr (Or.inr (Or.inl hw))
    · exact Or.inr (Or.inr (Or.inr ⟨q, hother q _ hq hmarked⟩))

theorem CoverInv.clear {s : Link π} (h : CoverInv s) {p : Priority} {command : U32}
    (hread : s.isr p = .read command) :
    CoverInv ({ s with
      a2b := { s.a2b with status := s.a2b.status &&& ~~~ bit p } }.setIsr p (.cleared command)) := by
  have hself : ∀ isr, Function.update s.isr p isr p = isr := fun _ => Function.update_self _ _ _
  -- the handler is at `read`, so moving it on loses nothing
  have hmoved := h.setIsr (.cleared command) (p := p) (by simp [hread]) (by simp [hread])
  refine ⟨fun q hq => ?_, hmoved.awake⟩
  by_cases hqp : q = p
  · subst hqp
    exact Or.inr (Or.inl ⟨command, hself _⟩)
  · refine (hmoved.covered q hq).imp (fun hbit => ?_) id
    change hasBit (s.a2b.status &&& ~~~ bit p) q = true
    rw [hasBit_and, hasBit_not, hasBit_bit, decide_eq_false (Ne.symm hqp), Bool.not_false,
      Bool.and_true]
    exact hbit

theorem CoverInv.mark {s : Link π} (h : CoverInv s) (p : Priority) :
    CoverInv ({ s with pending := s.pending ||| bit p }.setIsr p .marked) := by
  have hself : (Function.update s.isr p .marked) p = Isr.marked := Function.update_self _ _ _
  refine ⟨fun q hq => ?_, fun _ _ => Or.inr (Or.inr (Or.inr ⟨p, hself⟩))⟩
  by_cases hqp : q = p
  · refine Or.inr (Or.inr (Or.inl ?_))
    change hasBit (s.pending ||| bit p) q = true
    rw [hasBit_or, hasBit_bit, decide_eq_true hqp.symm, Bool.or_true]
  · rcases h.covered q hq with hc | ⟨c, hc⟩ | hc | hc
    · exact Or.inl hc
    · exact Or.inr (Or.inl ⟨c, (Function.update_of_ne hqp _ _).trans hc⟩)
    · refine Or.inr (Or.inr (Or.inl ?_))
      change hasBit (s.pending ||| bit p) q = true
      rw [hasBit_or, hc, Bool.true_or]
    · exact Or.inr (Or.inr (Or.inr hc))

theorem CoverInv.give {s : Link π} (h : CoverInv s) {p : Priority} (hmarked : s.isr p = .marked) :
    CoverInv ({ s with sem := true }.setIsr p .idle) := by
  refine ⟨fun q hq => ?_, fun _ _ => Or.inl rfl⟩
  rcases h.covered q hq with hc | ⟨c, hc⟩ | hc
  · exact Or.inl hc
  · have hqp : q ≠ p := by
      rintro rfl
      rw [hmarked] at hc
      cases hc
    exact Or.inr (Or.inl ⟨c, (Function.update_of_ne hqp _ _).trans hc⟩)
  · exact Or.inr (Or.inr hc)

theorem CoverInv.worker {s s' : Link π} (h : CoverInv s) (ha2b : s'.a2b = s.a2b)
    (hisr : s'.isr = s.isr) (hpending : s'.pending = s.pending) (hsem : s'.sem = s.sem)
    (htaken : s.worker ≠ .taken) (hgiving : s.worker ≠ .giving)
    (htags : ∀ p, true ∈ s'.tags p → true ∈ s.tags p)
    (hserve : ∀ p, true ∈ s'.tags p → s.worker.WillServe p → s'.worker.WillServe p) :
    CoverInv s' := by
  refine ⟨fun p hp => ?_, fun p hp => ?_⟩
  · rcases h.covered p (htags p hp) with hc | hc | hc | hc
    · exact Or.inl (ha2b ▸ hc)
    · exact Or.inr (Or.inl (hisr ▸ hc))
    · exact Or.inr (Or.inr (Or.inl (hpending ▸ hc)))
    · exact Or.inr (Or.inr (Or.inr (hserve p hp hc)))
  · rcases h.awake p (hpending ▸ hp) with hw | hw | hw | hw
    · exact Or.inl (hsem ▸ hw)
    · exact absurd hw htaken
    · exact absurd hw hgiving
    · exact Or.inr (Or.inr (Or.inr (hisr ▸ hw)))

theorem sender_wakeInv {s s' : Link π} (h : WakeInv s) {a : SenderAct}
    (hs : s.senderStep a = some s') : WakeInv s' := by
  obtain ⟨hpage, hbell, hcover⟩ := h
  have hrole : s.linux.role = some .linux := congrArg Prod.fst hpage.linux
  have hsame : ∀ sender : Sender, PageInv { s with sender := sender } :=
    fun _ => hpage.congr rfl rfl rfl
  have hsame' : ∀ sender : Sender, CoverInv { s with sender := sender } :=
    fun _ => ⟨hcover.covered, hcover.awake⟩
  -- one case for each place between two device accesses of the Linux sender
  cases a with
  | send p type payload length =>
    rw [Link.senderStep] at hs
    split_ifs at hs
    cases hs
    exact ⟨hpage.commit .., hbell.commit hrole .., hcover.commit hrole ..⟩
  | stop =>
    rw [Link.senderStep] at hs
    split_ifs at hs
    cases hs
    exact ⟨hpage.commit .., hbell.commit hrole .., hcover.commit hrole ..⟩
  | resume =>
    rw [Link.senderStep] at hs
    split_ifs at hs
    cases hs
    exact ⟨hpage.congr rfl rfl rfl, ⟨hbell.raised, hbell.sender, hbell.isr⟩,
      ⟨hcover.covered, hcover.awake⟩⟩
  | noBell =>
    rw [Link.senderStep] at hs
    split at hs
    · split_ifs at hs
      cases hs
      exact ⟨hsame _, ⟨hbell.raised, trivial, hbell.isr⟩, hsame' _⟩
    · cases hs
  | look =>
    rw [Link.senderStep] at hs
    split at hs
    case h_1 p _ =>
      split_ifs at hs with hbit
      · -- coalesced: the bit that is already up covers the frame
        cases hs
        have hbell' : BellInv { s with sender := .idle } := ⟨hbell.raised, trivial, hbell.isr⟩
        exact ⟨(hsame _).notified p true, hbell'.notified p true, (hsame' .idle).notified hbit true⟩
      · cases hs
        exact ⟨hsame _, ⟨hbell.raised, accepted_notification p, hbell.isr⟩, hsame' _⟩
    case h_2 => cases hs
  | lookRaw p value =>
    rw [Link.senderStep] at hs
    split_ifs at hs
    · cases hs
      exact ⟨hpage, hbell, hcover⟩
    · cases hs
      exact ⟨hsame _, ⟨hbell.raised, accepted_raw p, hbell.isr⟩, hsame' _⟩
  | writeCmd =>
    rw [Link.senderStep] at hs
    split at hs
    case h_1 p command value notifies hsender =>
      cases hs
      have hcommand : Accepted p command := by
        have := hbell.sender
        rwa [hsender] at this
      exact ⟨hpage.congr rfl rfl rfl, hbell.writeCmd hcommand ..,
        ⟨hcover.covered, hcover.awake⟩⟩
    case h_2 => cases hs
  | writeDat =>
    rw [Link.senderStep] at hs
    split at hs
    case h_1 p value notifies hsender =>
      cases hs
      have hcommand : Accepted p (s.a2b.cmd p) := by
        have := hbell.sender
        rwa [hsender] at this
      -- the write of the data register raises the bit, and only then is the frame called notified
      have hraised : hasBit (s.raise p value).a2b.status p = true := by simp [Link.raise]
      have hpage' : PageInv (s.raise p value) :=
        hpage.congr rfl rfl rfl
      exact ⟨hpage'.notified p notifies, (hbell.raise hcommand value).notified p notifies,
        (hcover.raise p value).notified hraised notifies⟩
    case h_2 => cases hs

theorem isr_wakeInv {s s' : Link π} (h : WakeInv s) {p : Priority} {a : IsrAct}
    (hs : s.isrStep p a = some s') : WakeInv s' := by
  obtain ⟨hpage, hbell, hcover⟩ := h
  have haccepts := hbell.isr p
  cases a with
  | fire =>
    rw [Link.isrStep] at hs
    split_ifs at hs with hfire
    obtain ⟨-, hbit, hidle⟩ := hfire
    cases hs
    -- the cover of a frame moves on with the handler: bit, handler, pending word, semaphore
    exact ⟨hpage.congr rfl rfl rfl, hbell.setIsr .fired (hbell.raised p hbit),
      hcover.setIsr .fired (by simp [hidle]) (by simp [hidle])⟩
  | readCmd =>
    rw [Link.isrStep] at hs
    split_ifs at hs with hfired
    cases hs
    rw [hfired] at haccepts
    exact ⟨hpage.congr rfl rfl rfl,
      hbell.setIsr (.read (s.a2b.cmd p)) haccepts,
      hcover.setIsr _ (by simp [hfired]) (by simp [hfired])⟩
  | clear =>
    rw [Link.isrStep] at hs
    split at hs
    case h_1 command hread =>
      cases hs
      rw [hread] at haccepts
      exact ⟨hpage.congr rfl rfl rfl,
        (hbell.clear p).setIsr (.cleared command) haccepts, hcover.clear hread⟩
    case h_2 => cases hs
  | mark =>
    rw [Link.isrStep] at hs
    split at hs
    case h_1 command hcleared =>
      -- every command that reaches the handler is one it accepts
      have hcommand : Accepted p command := by rwa [hcleared] at haccepts
      rw [if_pos hcommand] at hs
      cases hs
      have hbell' : BellInv { s with pending := s.pending ||| bit p } :=
        ⟨hbell.raised, hbell.sender, hbell.isr⟩
      exact ⟨hpage.congr rfl rfl rfl,
        hbell'.setIsr .marked trivial, hcover.mark p⟩
    case h_2 => cases hs
  | give =>
    rw [Link.isrStep] at hs
    split_ifs at hs with hmarked
    cases hs
    have hbell' : BellInv { s with sem := true } := ⟨hbell.raised, hbell.sender, hbell.isr⟩
    exact ⟨hpage.congr rfl rfl rfl,
      hbell'.setIsr .idle trivial, hcover.give hmarked⟩

/-- A turn finds the ring empty, or handles a frame, or leaves the service for good. -/
theorem turn_cases (b : Build) (bk : Backend π) {s : Link π} (h : PageInv s) (p : Priority) :
    ((s.cpu3.shared.linuxToCpu3 p).contents = [] ∧
      drainTurn b bk p s.cpu3 = .left s.cpu3 false true) ∨
    (∃ c, drainTurn b bk p s.cpu3 = .again c ∧ PageInv (s.served p c)) ∨
    ∃ c, drainTurn b bk p s.cpu3 = .cpuOff c := by
  have hdrain := h.draining p
  cases hq : (s.cpu3.shared.linuxToCpu3 p).contents with
  | nil =>
    rw [hq] at hdrain
    exact Or.inl ⟨rfl, drainTurn_nil hdrain⟩
  | cons m q =>
    have hm : Sound s.cpu3.endpoint.generation m :=
      (h.rings p).sound m (hq ▸ List.mem_cons_self)
    rw [hq] at hdrain
    rcases drainTurn_sound hdrain hm with ⟨c, hturn, hd, ho⟩ | ⟨c, hturn⟩
    · exact Or.inr (Or.inl ⟨c, hturn, h.served hd ho (hq ▸ List.suffix_cons m q)⟩)
    · exact Or.inr (Or.inr ⟨c, hturn⟩)

theorem PageInv.tags_eq_nil {s : Link π} (h : PageInv s) {p : Priority}
    (hempty : (s.cpu3.shared.linuxToCpu3 p).contents = []) : s.tags p = [] := by
  have hlen := (h.rings p).tags
  rw [hempty] at hlen
  exact List.length_eq_zero_iff.mp hlen

theorem next_wakeInv {b : Build} (hskip : ∀ p : Priority, p.val ≠ b.skipPriority) {s : Link π}
    (h : WakeInv s) {pending reschedule : U32} {p : Priority} {todo : List Priority}
    (hw : s.worker = .serving pending (p :: todo) reschedule) :
    WakeInv { s with
      worker := if !hasBit pending p ∨ p.val = b.skipPriority then .serving pending todo reschedule
        else .draining pending p drainQuota todo reschedule } := by
  refine ⟨h.page.congr rfl rfl rfl, ⟨h.bell.raised, h.bell.sender, h.bell.isr⟩, ?_⟩
  refine h.cover.worker rfl rfl rfl rfl (by simp [hw]) (by simp [hw]) (fun _ hq => hq) ?_
  intro q _ hserve
  rw [hw] at hserve
  dsimp only
  split_ifs with hskipped
  · -- by `hskip` the ring can only have been passed over because its pending bit is clear
    have hbit := hskipped.resolve_right (hskip p)
    refine hserve.imp (fun hin => ⟨hin.1, ?_⟩) id
    refine (List.mem_cons.mp hin.2).resolve_left fun hqp => ?_
    rw [← hqp, hin.1] at hbit
    exact absurd hbit (by decide)
  · rcases hserve with ⟨hpend, hmem⟩ | hres
    · rcases List.mem_cons.mp hmem with hqp | hmem
      · exact Or.inl hqp.symm
      · exact Or.inr (Or.inl ⟨hpend, hmem⟩)
    · exact Or.inr (Or.inr hres)

/-- The quota is never left with a frame in the ring unless the ring is asked for again. -/
theorem check_wakeInv {s : Link π} (h : WakeInv s) {pending reschedule : U32} {p : Priority}
    {remaining : ℕ} {todo : List Priority}
    (hw : s.worker = .checking pending p remaining todo reschedule) :
    WakeInv { s with
      worker := .serving pending todo
        (if remaining = 0 ∧ endpointHasReceived s.cpu3.endpoint s.cpu3.shared p = 1 then
          reschedule ||| bit p else reschedule) } := by
  refine ⟨h.page.congr rfl rfl rfl, ⟨h.bell.raised, h.bell.sender, h.bell.isr⟩, ?_⟩
  refine h.cover.worker rfl rfl rfl rfl (by simp [hw]) (by simp [hw]) (fun _ hq => hq) ?_
  intro q hq hserve
  rw [hw] at hserve
  rcases hserve with ⟨rfl, hrem⟩ | hin | hres
  · -- the ring holds a frame, so the look finds it
    have hne : (s.cpu3.shared.linuxToCpu3 p).consumer ≠ (s.cpu3.shared.linuxToCpu3 p).producer := by
      intro heq
      have hnil := h.page.tags_eq_nil ((h.page.rings p).inRange.contents_eq_nil.mpr heq)
      dsimp only at hq
      rw [hnil] at hq
      cases hq
    have hmore : endpointHasReceived s.cpu3.endpoint s.cpu3.shared p = 1 := by
      rw [endpointHasReceived_of_valid h.page.role h.page.session, ringHasData_eq]
      exact if_neg hne
    refine Or.inr ?_
    rw [if_pos ⟨hrem, hmore⟩]
    simp
  · exact Or.inl hin
  · refine Or.inr ?_
    split_ifs
    · simp [hres]
    · exact hres

theorem turn_wakeInv {b : Build} {bk : Backend π} {s s' : Link π} (h : WakeInv s)
    (hs : s.workerStep b bk .turn = some s') (hrun : s'.worker.running = true) : WakeInv s' := by
  have hbell := h.bell
  rw [Link.workerStep] at hs
  split at hs
  case h_1 pending p todo reschedule hw =>
    -- the quota is used up with the ring still this one: the check that follows looks at it
    cases hs
    refine ⟨h.page.congr rfl rfl rfl, ⟨hbell.raised, hbell.sender, hbell.isr⟩, ?_⟩
    refine h.cover.worker rfl rfl rfl rfl (by simp [hw]) (by simp [hw]) (fun _ hq => hq) ?_
    intro q _ hserve
    rw [hw] at hserve
    exact hserve.imp (fun hqp => ⟨hqp, rfl⟩) id
  case h_2 pending p n todo reschedule hw =>
    rcases turn_cases b bk h.page p with ⟨hempty, hturn⟩ | ⟨c, hturn, hpage⟩ | ⟨c, hturn⟩
    · -- nothing is left to serve in this ring
      rw [hturn] at hs
      cases hs
      have hsame : (s.served p s.cpu3).tags = s.tags := by
        refine Function.update_eq_self_iff.mpr ?_
        rw [h.page.tags_eq_nil hempty]
        exact List.drop_nil
      refine ⟨h.page.congr rfl rfl hsame, ⟨hbell.raised, hbell.sender, hbell.isr⟩, ?_⟩
      refine h.cover.worker rfl rfl rfl rfl (by simp [hw]) (by simp [hw])
        (fun _ => mem_tags_served) ?_
      intro q hq hserve
      rw [hw] at hserve
      rcases hserve with rfl | hserve
      · have htag := mem_tags_served hq
        rw [h.page.tags_eq_nil hempty] at htag
        cases htag
      · exact Or.inr hserve
    · rw [hturn] at hs
      cases hs
      refine ⟨hpage.congr rfl rfl rfl, ⟨hbell.raised, hbell.sender, hbell.isr⟩, ?_⟩
      refine h.cover.worker rfl rfl rfl rfl (by simp [hw]) (by simp [hw])
        (fun _ => mem_tags_served) ?_
      intro q _ hserve
      rw [hw] at hserve
      exact hserve
    · rw [hturn] at hs
      cases hs
      exact absurd hrun Bool.false_ne_true
  case h_3 => cases hs

theorem swap_coverInv {s : Link π} (h : CoverInv s) (hw : s.worker = .taken) :
    CoverInv { s with
      pending := 0
      worker := if s.pending = 0 then .waiting else .serving s.pending [0, 1, 2, 3] 0 } := by
  refine ⟨fun p hp => ?_, fun p hp => ?_⟩
  · rcases h.covered p hp with hc | hc | hc | hc
    · exact Or.inl hc
    · exact Or.inr (Or.inl hc)
    · -- the bits taken out of the pending word are the rings this pass will serve
      refine Or.inr (Or.inr (Or.inr ?_))
      dsimp only
      rw [if_neg (ne_zero_of_hasBit hc)]
      have hall : ∀ p : Priority, p ∈ [0, 1, 2, 3] := by decide
      exact Or.inl ⟨hc, hall p⟩
    · rw [hw] at hc
      exact absurd hc id
  · rw [hasBit_zero] at hp
    cases hp

theorem mark_coverInv {s : Link π} (h : CoverInv s) {reschedule : U32}
    (hw : s.worker = .marking reschedule) :
    CoverInv { s with pending := s.pending ||| reschedule, worker := .giving } := by
  refine ⟨fun p hp => ?_, fun _ _ => Or.inr (Or.inr (Or.inl rfl))⟩
  rcases h.covered p hp with hc | hc | hc | hc
  · exact Or.inl hc
  · exact Or.inr (Or.inl hc)
  · exact Or.inr (Or.inr (Or.inl (by simp [hc])))
  · rw [hw] at hc
    have hbit : hasBit reschedule p = true := hc
    exact Or.inr (Or.inr (Or.inl (by simp [hbit])))

theorem CoverInv.handover {s : Link π} (h : CoverInv s) (hidle : ∀ q, ¬ s.worker.WillServe q)
    {sem : Bool} {worker : Worker} (hawake : WakeComing { s with sem := sem, worker := worker }) :
    CoverInv { s with sem := sem, worker := worker } := by
  refine h.mono (fun _ hq => hq) (fun q hq => ?_) rfl fun _ => hawake
  rcases hq with hq | hq | hq | hq
  · exact Or.inl hq
  · exact Or.inr (Or.inl hq)
  · exact Or.inr (Or.inr (Or.inl hq))
  · exact absurd hq (hidle q)

theorem worker_wakeInv {b : Build} {bk : Backend π}
    (hskip : ∀ p : Priority, p.val ≠ b.skipPriority) {s s' : Link π} (h : WakeInv s) {a : WorkerAct}
    (hs : s.workerStep b bk a = some s') (hrun : s'.worker.running = true) : WakeInv s' := by
  have hbell := h.bell
  have hcover := h.cover
  cases a with
  | take =>
    rw [Link.workerStep] at hs
    split_ifs at hs with hw
    cases hs
    exact ⟨h.page.congr rfl rfl rfl, ⟨hbell.raised, hbell.sender, hbell.isr⟩,
      hcover.handover (fun q => by rw [hw.1]; exact id) (Or.inr (Or.inl rfl))⟩
  | swap =>
    rw [Link.workerStep] at hs
    by_cases hw : s.worker = .taken
    · rw [if_pos hw] at hs
      cases hs
      exact ⟨h.page.congr rfl rfl rfl, ⟨hbell.raised, hbell.sender, hbell.isr⟩,
        swap_coverInv hcover hw⟩
    · rw [if_neg hw] at hs
      cases hs
  | next =>
    rw [Link.workerStep] at hs
    split at hs
    case h_1 hw =>
      cases hs
      exact next_wakeInv hskip h hw
    case h_2 pending reschedule hw =>
      cases hs
      refine ⟨h.page.congr rfl rfl rfl, ⟨hbell.raised, hbell.sender, hbell.isr⟩, ?_⟩
      refine hcover.worker rfl rfl rfl rfl (by simp [hw]) (by simp [hw]) (fun _ hq => hq) ?_
      intro q _ hserve
      rw [hw] at hserve
      have hbit : hasBit reschedule q = true :=
        hserve.resolve_left fun hin => List.not_mem_nil hin.2
      dsimp only
      -- a ring put off in this pass makes the worker mark it again
      rw [if_pos (ne_zero_of_hasBit hbit)]
      exact hbit
    case h_3 => cases hs
  | turn => exact turn_wakeInv h hs hrun
  | check =>
    rw [Link.workerStep] at hs
    split at hs
    case h_1 hw =>
      cases hs
      exact check_wakeInv h hw
    case h_2 => cases hs
  | mark =>
    rw [Link.workerStep] at hs
    split at hs
    case h_1 hw =>
      cases hs
      exact ⟨h.page.congr rfl rfl rfl, ⟨hbell.raised, hbell.sender, hbell.isr⟩,
        mark_coverInv hcover hw⟩
    case h_2 => cases hs
  | give =>
    rw [Link.workerStep] at hs
    split_ifs at hs with hw
    cases hs
    exact ⟨h.page.congr rfl rfl rfl, ⟨hbell.raised, hbell.sender, hbell.isr⟩,
      hcover.handover (fun q => by rw [hw]; exact id) (Or.inl rfl)⟩
  -- the stop path: the service is over, and the invariant is not asked for any more
  | disable | readStatus | cpuOff =>
    rw [Link.workerStep] at hs
    split_ifs at hs
    cases hs
    exact absurd hrun Bool.false_ne_true
  | acknowledge =>
    rw [Link.workerStep] at hs
    split at hs
    · cases hs
      exact absurd hrun Bool.false_ne_true
    · cases hs

theorem WakeInv.keeps {s : Link π} (h : WakeInv s) {c : State π} (hk : KeepsRequests s.cpu3 c) :
    WakeInv { s with cpu3 := c } := by
  have hgen : c.endpoint.generation = s.cpu3.endpoint.generation := congrArg Prod.snd hk.identity
  refine ⟨⟨hk.role h.page.role, ?_, ?_, ?_⟩, ⟨h.bell.raised, h.bell.sender, h.bell.isr⟩,
    ⟨h.cover.covered, h.cover.awake⟩⟩
  · exact (endpointSessionValid_congr hk.identity hk.header).trans h.page.session
  · exact h.page.linux.trans (by rw [← hgen])
  · dsimp only
    rw [hgen, hk.requests]
    exact h.page.rings

theorem linuxReads_wakeInv {s : Link π} (h : WakeInv s) (rings : Priority → Ring)
    (b2a : Doorbells) :
    WakeInv { s with cpu3 := { s.cpu3 with
      shared := { s.cpu3.shared with cpu3ToLinux := rings }, b2a := b2a } } :=
  h.keeps ⟨rfl, rfl, rfl⟩

theorem step_wakeInv {b : Build} {bk : Backend π}
    (hskip : ∀ p : Priority, p.val ≠ b.skipPriority) {s s' : Link π} {a : Act} (h : WakeInv s)
    (hs : LinkStep b bk s a s') (hrun : s'.worker.running = true) : WakeInv s' := by
  cases a with
  | sender a => exact sender_wakeInv h hs
  | isr p a => exact isr_wakeInv h hs
  | worker a => exact worker_wakeInv hskip h hs hrun
  | linuxReads rings b2a =>
    cases hs
    exact linuxReads_wakeInv h rings b2a

/-- A bound session at rest: nothing in flight, and no queued frame has been notified. -/
structure Steady (s : Link π) : Prop where
  page : PageInv s
  raised : ∀ p, hasBit s.a2b.status p = true → Accepted p (s.a2b.cmd p)
  sender : s.sender = .idle
  isr : ∀ p, s.isr p = .idle
  worker : s.worker = .waiting
  pending : s.pending = 0
  fresh : ∀ p, true ∉ s.tags p

theorem Steady.wakeInv {s : Link π} (h : Steady s) : WakeInv s := by
  refine ⟨h.page, ⟨h.raised, ?_, fun p => ?_⟩, ⟨fun p hp => ?_, fun p hp => ?_⟩⟩
  · rw [h.sender]
    trivial
  · rw [h.isr p]
    trivial
  · exact absurd hp (h.fresh p)
  · rw [h.pending, hasBit_zero] at hp
    cases hp

theorem wakeInv_of_trace {b : Build} {bk : Backend π}
    (hskip : ∀ p : Priority, p.val ≠ b.skipPriority) {s₀ s : Link π} {acts : List Act}
    (h₀ : Steady s₀) (h : Trace (LinkStep b bk) s₀ acts s) (hrun : s.worker.running = true) :
    WakeInv s := by
  refine Trace.invariant (I := fun s => s.worker.running = true → WakeInv s) ?_ h
    (fun _ => h₀.wakeInv) hrun
  exact fun s a s' ih hs hrun => step_wakeInv hskip (ih (running_before hs hrun)) hs hrun

/-- No wakeup is lost.  As long as CPU3 has not taken itself off, whatever the interleaving, a frame
still queued whose notification was sent or coalesced is accounted for: its doorbell is up; or the
handler has taken the doorbell down and is about to mark the ring; or the ring is marked and the
worker is awake to swap the mask or about to be woken; or the worker will look at the ring before it
sleeps or asks for another pass over it. -/
theorem notified_frame_covered {b : Build} {bk : Backend π}
    (hskip : ∀ p : Priority, p.val ≠ b.skipPriority) {s₀ s : Link π} {acts : List Act}
    (h₀ : Steady s₀) (h : Trace (LinkStep b bk) s₀ acts s) (hrun : s.worker.running = true)
    (p : Priority) (hp : true ∈ s.tags p) :
    hasBit s.a2b.status p = true ∨ (∃ command, s.isr p = .cleared command) ∨
      (hasBit s.pending p = true ∧ WakeComing s) ∨ s.worker.WillServe p := by
  have hinv := wakeInv_of_trace hskip h₀ h hrun
  rcases hinv.cover.covered p hp with hc | hc | hc | hc
  · exact Or.inl hc
  · exact Or.inr (Or.inl hc)
  · exact Or.inr (Or.inr (Or.inl ⟨hc, hinv.cover.awake p hc⟩))
  · exact Or.inr (Or.inr (Or.inr hc))

theorem worker_can_step (b : Build) (bk : Backend π) {s : Link π} (hwait : s.worker ≠ .waiting)
    (hrun : s.worker.running = true) : ∃ a s', s.workerStep b bk a = some s' := by
  cases hw : s.worker with
  | waiting => exact absurd hw hwait
  | taken => exact ⟨.swap, _, if_pos hw⟩
  | serving pending todo reschedule =>
    refine ⟨.next, ?_⟩
    cases todo <;> simp [Link.workerStep, hw]
  | draining pending p n todo reschedule =>
    refine ⟨.turn, ?_⟩
    cases n with
    | zero => simp [Link.workerStep, hw]
    | succ n => cases hturn : drainTurn b bk p s.cpu3 <;> simp [Link.workerStep, hw, hturn]
  | checking => exact ⟨.check, by simp [Link.workerStep, hw]⟩
  | marking => exact ⟨.mark, by simp [Link.workerStep, hw]⟩
  | giving => exact ⟨.give, _, if_pos hw⟩
  | disabling | quiescing | acknowledging | parking | off =>
    rw [hw] at hrun
    cases hrun

theorem isr_can_step {s : Link π} {p : Priority}
    (h : s.isr p ≠ .idle ∨ (s.irqEnabled = true ∧ hasBit s.a2b.status p = true)) :
    ∃ a s', s.isrStep p a = some s' := by
  cases hisr : s.isr p with
  | idle =>
    obtain ⟨hirq, hbit⟩ := h.resolve_left (not_not.mpr hisr)
    exact ⟨.fire, _, if_pos ⟨hirq, hbit, hisr⟩⟩
  | fired => exact ⟨.readCmd, _, if_pos hisr⟩
  | read command => exact ⟨.clear, by simp [Link.isrStep, hisr]⟩
  | cleared command =>
    refine ⟨.mark, ?_⟩
    by_cases hcommand : Accepted p command <;> simp [Link.isrStep, hisr, hcommand]
  | marked => exact ⟨.give, _, if_pos hisr⟩

theorem irqEnabled_of_trace {b : Build} {bk : Backend π} {s₀ s : Link π} {acts : List Act}
    (h₀ : s₀.irqEnabled = true) (h : Trace (LinkStep b bk) s₀ acts s)
    (hrun : s.worker.running = true) : s.irqEnabled = true := by
  refine Trace.invariant (I := fun s => s.worker.running = true → s.irqEnabled = true) ?_ h
    (fun _ => h₀) hrun
  intro s a s' ih hs hrun
  have hold := ih (running_before hs hrun)
  cases a with
  | sender a => exact (Link.senderStep_frame hs).irqEnabled.trans hold
  | isr p a => exact (Link.isrStep_frame hs).irqEnabled.trans hold
  | linuxReads rings b2a =>
    cases hs
    exact hold
  | worker a =>
    have hup := running_before hs hrun
    refine ((Link.workerStep_frame hs).irqEnabled fun hw => ?_).trans hold
    rw [hw] at hup
    cases hup

/-- While CPU3 is up, a notified frame always leaves the handler or the worker something to do. -/
theorem notified_frame_not_stuck {b : Build} {bk : Backend π}
    (hskip : ∀ p : Priority, p.val ≠ b.skipPriority) {s₀ s : Link π} {acts : List Act}
    (h₀ : Steady s₀) (hirq : s₀.irqEnabled = true) (h : Trace (LinkStep b bk) s₀ acts s)
    (hrun : s.worker.running = true) {p : Priority} (hp : true ∈ s.tags p) :
    (∃ q a s', s.isrStep q a = some s') ∨ ∃ a s', s.workerStep b bk a = some s' := by
  have hinv := wakeInv_of_trace hskip h₀ h hrun
  -- a sleeping worker can only be waiting for the semaphore
  by_cases hwait : s.worker = .waiting
  · have hasleep : ¬ s.worker.WillServe p := by
      rw [hwait]
      exact id
    rcases hinv.cover.covered p hp with hc | ⟨command, hc⟩ | hc | hc
    · exact Or.inl ⟨p, isr_can_step (Or.inr ⟨irqEnabled_of_trace hirq h hrun, hc⟩)⟩
    · exact Or.inl ⟨p, isr_can_step (Or.inl (by simp [hc]))⟩
    · rcases hinv.cover.awake p hc with hw | hw | hw | ⟨q, hq⟩
      · exact Or.inr ⟨.take, _, if_pos ⟨hwait, hw⟩⟩
      · rw [hwait] at hw
        cases hw
      · rw [hwait] at hw
        cases hw
      · exact Or.inl ⟨q, isr_can_step (Or.inl (by simp [hq]))⟩
    · exact absurd hc hasleep
  · exact Or.inr (worker_can_step b bk hwait hrun)

theorem restingLink_steady : Steady restingLink where
  page := by
    refine ⟨rfl, by decide +kernel, rfl, fun p => ⟨?_, ?_, ?_, ?_⟩⟩
    · revert p
      decide +kernel
    · revert p
      decide +kernel
    · revert p
      unfold Sound
      decide +kernel
    · revert p
      decide +kernel
  raised p hp := by
    rw [show restingLink.a2b.status = 0 from rfl, hasBit_zero] at hp
    cases hp
  sender := rfl
  isr _ := rfl
  worker := rfl
  pending := rfl
  fresh _ := List.not_mem_nil

/-- Two PINGs on p1, the second coalesced, and the worker awake with the first one handled. -/
def twoPings : List Act :=
  [.sender (.send 1 msgPing (storePayloadU32 7) 4), .sender .look, .sender .writeCmd,
    .sender .writeDat, .isr 1 .fire, .sender (.send 1 msgPing (storePayloadU32 8) 4), .sender .look,
    .isr 1 .readCmd, .isr 1 .clear, .isr 1 .mark, .isr 1 .give,
    .worker .take, .worker .swap, .worker .next, .worker .next, .worker .turn]

theorem notified_frame_covered_two_pings :
    ∃ s : Link Unit, Trace (LinkStep image noPeripherals) restingLink twoPings s ∧
      s.tags 1 = [true] ∧
      (hasBit s.a2b.status 1 = true ∨ (∃ command, s.isr 1 = .cleared command) ∨
        (hasBit s.pending 1 = true ∧ WakeComing s) ∨ s.worker.WillServe 1) := by
  obtain ⟨s, htrace, htest⟩ := Trace.exists_of_foldlM (Link.step image noPeripherals)
    restingLink twoPings
    (fun s => decide (s.worker.running = true ∧ s.tags 1 = [true])) (by decide +kernel)
  obtain ⟨hrun, htags⟩ := of_decide_eq_true htest
  exact ⟨s, htrace, htags, notified_frame_covered (by decide) restingLink_steady htrace hrun 1
    (htags ▸ List.mem_cons_self)⟩

end Lzamp.System
