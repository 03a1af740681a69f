import Lzamp.Mailmsg.Endpoint

namespace Lzamp.Mailmsg

def EndpointRole.peer : EndpointRole → EndpointRole
  | .linux => .cpu3
  | .cpu3 => .linux

@[simp] theorem EndpointRole.peer_peer (role : EndpointRole) : role.peer.peer = role := by
  cases role <;> rfl

theorem EndpointRole.peer_ne (role : EndpointRole) : role.peer ≠ role := by
  cases role <;> decide

@[simp] theorem Shared.tx_peer (sh : Shared) (role : EndpointRole) :
    sh.tx role.peer = sh.rx role := by
  cases role <;> rfl

/-- The page after `mailmsg_shared` was initialised: a valid header over empty rings. -/
structure Shared.Fresh (sh : Shared) : Prop where
  magic : sh.magic = protocolMagic
  version : sh.version = protocolVersion
  generation : sh.generation ≠ 0
  rings : ∀ role p, sh.tx role p = Ring.zero

/-- Both endpoints and their page.  `highest` records the largest ring count right after a
successful send. -/
structure Channel where
  endpoint : EndpointRole → Endpoint
  shared : Shared
  highest : EndpointRole → Priority → ℤ

/-- A call by one side, with what its notification backend answers, or damage to one slot of the
ring that `role` sends to.  Damage leaves `sequence` and `commit` alone. -/
inductive Call where
  | send (role : EndpointRole) (priority : ℕ) (type : U32) (payload : Option (List U8))
      (length : U32) (result : SendResult) (notified : ℤ)
  | receive (role : EndpointRole) (priority : ℕ) (message : Message)
  | corrupt (role : EndpointRole) (p : Priority) (i : Fin 8) (generation type length : U32)
      (payload : Fin 28 → U8) (crc32 : U32)

def Ring.damage (r : Ring) (i : Fin 8) (generation type length : U32) (payload : Fin 28 → U8)
    (crc32 : U32) : Ring :=
  { r with slot := Function.update r.slot i { r.slot i with
      generation := generation, type := type, length := length, payload := payload,
      crc32 := crc32 } }

def answering (result : ℤ) : Unit → Priority → ℤ × Unit := fun n _ => (result, n)

/-- The record after a successful send on `p` that left `count` frames queued. -/
def raise (highest : EndpointRole → Priority → ℤ) (role : EndpointRole) (p : Priority)
    (count : ℤ) : EndpointRole → Priority → ℤ :=
  Function.update highest role (Function.update (highest role) p (max (highest role p) count))

def Channel.step (c : Channel) : Call → Channel
  | .send role priority type payload length result notified =>
    let s := endpointSend (answering notified) () (c.endpoint role) c.shared priority type payload
      length result
    { endpoint := Function.update c.endpoint role s.endpoint
      shared := s.shared
      highest := if s.ret = endpointOk then
          raise c.highest role (Fin.ofNat 4 priority)
            (ringCount (s.shared.tx role (Fin.ofNat 4 priority)))
        else c.highest }
  | .receive role priority message =>
    let r := endpointReceive (c.endpoint role) c.shared priority message
    { c with endpoint := Function.update c.endpoint role r.endpoint, shared := r.shared }
  | .corrupt role p i generation type length payload crc32 =>
    let r := (c.shared.tx role p).damage i generation type length payload crc32
    { c with shared := c.shared.setTx role p r }

def Channel.run (c : Channel) (calls : List Call) : Channel := calls.foldl Channel.step c

/-- Both roles bind to the page, whatever the endpoints held before. -/
def Channel.bound (endpoint : EndpointRole → Endpoint) (sh : Shared) : Channel where
  endpoint role := (endpointBind (endpoint role) sh role).2
  shared := sh
  highest _ _ := 0

def PriorityStats.taken (s : PriorityStats) : U32 := s.rxOk + s.rxBadCrc + s.rxInvalid + s.rxStale

def PriorityStats.rung (s : PriorityStats) : U32 :=
  s.notifySent + s.notifyCoalesced + s.notifyFailed

/-- What one direction of one priority keeps: `sent` counts in, `got` counts out, `r` holds the
difference. -/
structure Balanced (sent got : PriorityStats) (r : Ring) (highest : ℤ) : Prop where
  inRange : r.InRange
  committed : ∀ m ∈ r.contents, m.commit = m.sequence
  balance : sent.txEnqueued = got.taken + BitVec.ofNat 32 r.depth
  complete : got.rxIncomplete = 0
  rung : sent.rung = sent.txEnqueued
  highest_nonneg : 0 ≤ highest
  highest_le : highest ≤ 7
  highWater : sent.txHighWater = BitVec.ofInt 32 highest

theorem Ring.InRange.ringCount_eq {r : Ring} (h : r.InRange) : ringCount r = r.depth := by
  have hp := h.producer
  have hc := h.consumer
  unfold ringCount Ring.depth
  dsimp only
  rw [if_neg (by omega)]
  split_ifs with hle <;> omega

theorem PriorityStats.rung_countNotify (s : PriorityStats) (notified : ℤ) :
    (s.countNotify notified).rung = s.rung + 1 := by
  unfold PriorityStats.countNotify PriorityStats.rung
  split_ifs <;> dsimp only <;> bv_omega

theorem PriorityStats.countNotify_tx (s : PriorityStats) (notified : ℤ) :
    (s.countNotify notified).txEnqueued = s.txEnqueued ∧
      (s.countNotify notified).txHighWater = s.txHighWater ∧
      (s.countNotify notified).taken = s.taken ∧
      (s.countNotify notified).rxIncomplete = s.rxIncomplete := by
  unfold PriorityStats.countNotify
  split_ifs <;> exact ⟨rfl, rfl, rfl, rfl⟩

theorem PriorityStats.countEnqueue_tx (s : PriorityStats) (depth : ℤ) :
    (s.countEnqueue depth).txEnqueued = s.txEnqueued + 1 ∧
      (s.countEnqueue depth).rung = s.rung ∧
      (s.countEnqueue depth).taken = s.taken ∧
      (s.countEnqueue depth).rxIncomplete = s.rxIncomplete := by
  unfold PriorityStats.countEnqueue
  dsimp only
  split_ifs <;> exact ⟨rfl, rfl, rfl, rfl⟩

/-- The high-water mark follows the maximum, as both stay small. -/
theorem PriorityStats.countEnqueue_highWater {s : PriorityStats} {highest depth : ℤ}
    (h : s.txHighWater = BitVec.ofInt 32 highest) (hnonneg : 0 ≤ highest) (hle : highest ≤ 7)
    (hdepth : 0 ≤ depth) :
    (s.countEnqueue depth).txHighWater = BitVec.ofInt 32 (max highest depth) := by
  have hnat : (s.txHighWater.toNat : ℤ) = highest := by
    rw [h, BitVec.toNat_ofInt]
    omega
  unfold PriorityStats.countEnqueue
  dsimp only
  split_ifs with hmore
  · rw [max_eq_right (by omega)]
  · rw [max_eq_left (by omega)]
    exact h

theorem Ring.InRange.depth_published {r : Ring} (h : r.InRange)
    (hroom : next r.producer ≠ r.consumer) (m : Message) :
    (r.published m).depth = r.depth + 1 := by
  rw [← Ring.length_contents, ← Ring.length_contents]
  have hcontents : (r.published m).contents = r.contents ++ [m.seal] :=
    h.contents_publish (h.depth_lt_seven hroom) m.seal
  rw [hcontents, List.length_append, List.length_singleton]

theorem Balanced.send {sent got : PriorityStats} {r : Ring} {highest : ℤ}
    (h : Balanced sent got r highest) (hroom : next r.producer ≠ r.consumer) (m : Message)
    (notified : ℤ) :
    Balanced ((sent.countEnqueue (ringCount (r.published m))).countNotify notified) got
      (r.published m) (max highest (ringCount (r.published m))) := by
  have hrange : (r.published m).InRange := h.inRange.publish _
  have hdepth := h.inRange.depth_published hroom m
  have hcount : ringCount (r.published m) = r.depth + 1 := by
    rw [hrange.ringCount_eq, hdepth]
    rfl
  have hseven := h.inRange.depth_lt_seven hroom
  obtain ⟨henq, hhigh, -, -⟩ :=
    (sent.countEnqueue (ringCount (r.published m))).countNotify_tx notified
  obtain ⟨henq', hrung', -, -⟩ := sent.countEnqueue_tx (ringCount (r.published m))
  have hcontents : (r.published m).contents = r.contents ++ [m.seal] :=
    h.inRange.contents_publish hseven m.seal
  refine
    { inRange := hrange
      committed := ?_
      balance := ?_
      complete := h.complete
      rung := ?_
      highest_nonneg := le_max_of_le_left h.highest_nonneg
      highest_le := ?_
      highWater := ?_ }
  · rw [hcontents]
    intro x hx
    rcases List.mem_append.mp hx with hx | hx
    · exact h.committed x hx
    · rw [List.mem_singleton.mp hx]
      rfl
  · rw [henq, henq', h.balance, hdepth, BitVec.ofNat_add, add_assoc]
    rfl
  · rw [PriorityStats.rung_countNotify, hrung', henq, henq', h.rung]
  · have := h.highest_le
    rw [hcount]
    omega
  · rw [hhigh]
    exact PriorityStats.countEnqueue_highWater h.highWater h.highest_nonneg h.highest_le (by omega)

theorem PriorityStats.countReceive_taken (s : PriorityStats) (generation : U32) (m : Message) :
    (s.countReceive (receiveResult generation (frameCheck m) m)).taken = s.taken + 1 ∧
      (s.countReceive (receiveResult generation (frameCheck m) m)).rxIncomplete =
        s.rxIncomplete := by
  have hrange := frameCheck_range m
  have hcount : ∀ ret : ℤ,
      ret = endpointStaleFrame ∨ ret = ringOk ∨ ret = ringBadCrc ∨ ret = ringInvalid →
      (s.countReceive ret).taken = s.taken + 1 ∧
        (s.countReceive ret).rxIncomplete = s.rxIncomplete := by
    rintro ret (rfl | rfl | rfl | rfl) <;>
      refine ⟨?_, rfl⟩ <;> simp [PriorityStats.countReceive, PriorityStats.taken] <;> bv_omega
  apply hcount
  unfold receiveResult
  split_ifs
  · exact Or.inl rfl
  · exact Or.inr hrange

theorem PriorityStats.countReceive_tx (s : PriorityStats) (ret : ℤ) :
    (s.countReceive ret).txEnqueued = s.txEnqueued ∧ (s.countReceive ret).rung = s.rung ∧
      (s.countReceive ret).txHighWater = s.txHighWater := by
  unfold PriorityStats.countReceive
  split_ifs <;> exact ⟨rfl, rfl, rfl⟩

theorem Balanced.receive {sent got got' : PriorityStats} {r : Ring} {highest : ℤ}
    (h : Balanced sent got r highest) {m : Message} {q : List Message}
    (hq : r.contents = m :: q) (hreleased : r.released.contents = q)
    (htaken : got'.taken = got.taken + 1) (hcomplete : got'.rxIncomplete = got.rxIncomplete) :
    Balanced sent got' r.released highest where
  inRange := h.inRange.release
  committed := by
    rw [hreleased]
    exact fun x hx => h.committed x (hq ▸ List.mem_cons_of_mem m hx)
  balance := by
    have hdepth : r.depth = r.released.depth + 1 := by
      rw [← Ring.length_contents, ← Ring.length_contents, hreleased, hq, List.length_cons]
    rw [h.balance, htaken, hdepth, BitVec.ofNat_add]
    bv_omega
  complete := hcomplete.trans h.complete
  rung := h.rung
  highest_nonneg := h.highest_nonneg
  highest_le := h.highest_le
  highWater := h.highWater

theorem Ring.contents_damage (r : Ring) (i : Fin 8) (generation type length : U32)
    (payload : Fin 28 → U8) (crc32 : U32) :
    (r.damage i generation type length payload crc32).depth = r.depth ∧
      ∀ m ∈ (r.damage i generation type length payload crc32).contents,
        ∃ m₀ ∈ r.contents, m.commit = m₀.commit ∧ m.sequence = m₀.sequence := by
  refine ⟨rfl, fun m hm => ?_⟩
  obtain ⟨j, hj, rfl⟩ := List.mem_map.mp hm
  refine ⟨r.slot (Fin.ofNat 8 (r.consumer.toNat + j)), List.mem_map.mpr ⟨j, hj, rfl⟩, ?_⟩
  by_cases hi : Fin.ofNat 8 (r.consumer.toNat + j) = i
  · subst hi
    simp [Ring.damage]
  · simp only [Ring.damage]
    rw [Function.update_of_ne hi]
    exact ⟨rfl, rfl⟩

theorem Balanced.corrupt {sent got : PriorityStats} {r : Ring} {highest : ℤ}
    (h : Balanced sent got r highest) (i : Fin 8) (generation type length : U32)
    (payload : Fin 28 → U8) (crc32 : U32) :
    Balanced sent got (r.damage i generation type length payload crc32) highest where
  inRange := ⟨h.inRange.producer, h.inRange.consumer⟩
  committed m hm := by
    obtain ⟨m₀, hm₀, hcommit, hsequence⟩ :=
      (r.contents_damage i generation type length payload crc32).2 m hm
    rw [hcommit, hsequence]
    exact h.committed m₀ hm₀
  balance := h.balance
  complete := h.complete
  rung := h.rung
  highest_nonneg := h.highest_nonneg
  highest_le := h.highest_le
  highWater := h.highWater

/-- What the other direction reads of a side's statistics did not move. -/
structure SameTx (s s' : PriorityStats) : Prop where
  txEnqueued : s'.txEnqueued = s.txEnqueued
  rung : s'.rung = s.rung
  txHighWater : s'.txHighWater = s.txHighWater

structure SameRx (s s' : PriorityStats) : Prop where
  taken : s'.taken = s.taken
  rxIncomplete : s'.rxIncomplete = s.rxIncomplete

theorem Balanced.congr {sent sent' got got' : PriorityStats} {r : Ring} {highest : ℤ}
    (h : Balanced sent got r highest) (hsent : SameTx sent sent') (hgot : SameRx got got') :
    Balanced sent' got' r highest where
  inRange := h.inRange
  committed := h.committed
  balance := by rw [hsent.txEnqueued, hgot.taken, h.balance]
  complete := hgot.rxIncomplete.trans h.complete
  rung := by rw [hsent.rung, hsent.txEnqueued, h.rung]
  highest_nonneg := h.highest_nonneg
  highest_le := h.highest_le
  highWater := hsent.txHighWater.trans h.highWater

structure Channel.Sound (c : Channel) : Prop where
  role : ∀ role, (c.endpoint role).role = some role
  session : ∀ role, endpointSessionValid (c.endpoint role) c.shared = endpointOk
  balanced : ∀ role p, Balanced ((c.endpoint role).stats p) ((c.endpoint role.peer).stats p)
    (c.shared.tx role p) (c.highest role p)

theorem Shared.Fresh.sound {sh : Shared} (h : sh.Fresh) (endpoint : EndpointRole → Endpoint) :
    (Channel.bound endpoint sh).Sound := by
  have hbind : ∀ role, (endpointBind (endpoint role) sh role).2 =
      { role := some role, nextSequence := 0, generation := sh.generation,
        stats := fun _ => PriorityStats.zero } := by
    intro role
    rw [endpointBind, if_neg (by simp [h.magic, h.version]), if_neg h.generation]
  refine ⟨fun role => ?_, fun role => ?_, fun role p => ?_⟩
  · rw [Channel.bound]
    dsimp only
    rw [hbind]
  · rw [Channel.bound]
    dsimp only
    rw [hbind]
    exact endpointSessionValid_ok.mpr ⟨by simp, h.generation, h.magic, h.version, rfl⟩
  · rw [Channel.bound]
    dsimp only
    rw [hbind, hbind, h.rings]
    exact ⟨Ring.zero_inRange, by simp, rfl, rfl, rfl, le_refl 0, by decide, rfl⟩

theorem sameTx_refl (s : PriorityStats) : SameTx s s := ⟨rfl, rfl, rfl⟩

theorem sameRx_refl (s : PriorityStats) : SameRx s s := ⟨rfl, rfl⟩

theorem Endpoint.stats_modifyStats (e : Endpoint) (p q : Priority)
    {f : PriorityStats → PriorityStats} {R : PriorityStats → PriorityStats → Prop}
    (hrefl : ∀ s, R s s) (hf : ∀ s, R s (f s)) : R (e.stats q) ((e.modifyStats p f).stats q) := by
  by_cases hq : q = p
  · subst hq
    simpa [Endpoint.modifyStats] using hf (e.stats q)
  · simpa [Endpoint.modifyStats, Function.update_of_ne hq] using hrefl (e.stats q)

/-- Nothing was queued, and at most `tx_full` moved. -/
structure Uncounted (e : Endpoint) (sh : Shared) (e' : Endpoint) (sh' : Shared) : Prop where
  shared : sh' = sh
  tx : ∀ p, SameTx (e.stats p) (e'.stats p)
  rx : ∀ p, SameRx (e.stats p) (e'.stats p)

/-- `m` was queued on `p`, and the statistics of `p` moved by `count`. -/
structure Counted (e : Endpoint) (sh : Shared) (role : EndpointRole) (p : Priority) (m : Message)
    (count : PriorityStats → PriorityStats) (e' : Endpoint) (sh' : Shared) : Prop where
  room : next (sh.tx role p).producer ≠ (sh.tx role p).consumer
  shared : sh' = sh.setTx role p ((sh.tx role p).published m)
  stats : e'.stats = Function.update e.stats p (count (e.stats p))

theorem Uncounted.refl (e : Endpoint) (sh : Shared) : Uncounted e sh e sh :=
  ⟨rfl, fun _ => sameTx_refl _, fun _ => sameRx_refl _⟩

theorem settlePush_uncounted {ret : ℤ} (h : ret ≠ ringOk) (e : Endpoint) (sh : Shared)
    (role : EndpointRole) (p : Priority) :
    Uncounted e sh
      (settlePush (endpointNextSequence e).2 sh role p (endpointNextSequence e).1
        (ret, sh.tx role p)).endpoint
      (settlePush (endpointNextSequence e).2 sh role p (endpointNextSequence e).1
        (ret, sh.tx role p)).shared := by
  rw [settlePush, if_pos h]
  dsimp only
  split_ifs with hfull
  · exact ⟨sh.setTx_self role p,
      fun q => (endpointNextSequence e).2.stats_modifyStats p q sameTx_refl fun _ => ⟨rfl, rfl, rfl⟩,
      fun q => (endpointNextSequence e).2.stats_modifyStats p q sameRx_refl fun _ => ⟨rfl, rfl⟩⟩
  · exact ⟨sh.setTx_self role p, fun _ => sameTx_refl _, fun _ => sameRx_refl _⟩

theorem endpointEnqueue_counted {e : Endpoint} {role : EndpointRole}
    (hrole : e.role = some role) (sh : Shared) (priority : ℕ) (type : U32) (payload : Option (List U8))
    (length : U32) (result : SendResult) :
    ((endpointEnqueue e sh priority type payload length result).ret ≠ endpointOk ∧
      Uncounted e sh (endpointEnqueue e sh priority type payload length result).endpoint
        (endpointEnqueue e sh priority type payload length result).shared) ∨
    ∃ p m, (endpointEnqueue e sh priority type payload length result).ret = endpointOk ∧
      Fin.ofNat 4 priority = p ∧
      Counted e sh role p m (fun s => s.countEnqueue (ringCount ((sh.tx role p).published m)))
        (endpointEnqueue e sh priority type payload length result).endpoint
        (endpointEnqueue e sh priority type payload length result).shared := by
  unfold endpointEnqueue
  simp only [hrole]
  by_cases hp : priority < 4
  · rw [dif_pos hp]
    split_ifs with hargs hsession
    · exact Or.inl ⟨(by decide : endpointInvalid ≠ endpointOk), .refl e sh⟩
    · exact Or.inl ⟨hsession, .refl e sh⟩
    · rw [enqueueFrame, ringPush_eq]
      split_ifs with hform hfull
      · exact Or.inl ⟨(by decide : ringInvalid ≠ endpointOk),
          settlePush_uncounted (by decide) e sh role ⟨priority, hp⟩⟩
      · exact Or.inl ⟨(by decide : ringFull ≠ endpointOk),
          settlePush_uncounted (by decide) e sh role ⟨priority, hp⟩⟩
      · exact Or.inr ⟨⟨priority, hp⟩, _, rfl, Fin.ext (Nat.mod_eq_of_lt hp), hfull, rfl, rfl⟩
  · rw [dif_neg hp]
    exact Or.inl ⟨(by decide : endpointInvalid ≠ endpointOk), .refl e sh⟩

/-- A send counts its frame in together with its notification, or counts nothing. -/
theorem endpointSend_counted {e : Endpoint} {role : EndpointRole}
    (hrole : e.role = some role) (sh : Shared) (priority : ℕ) (type : U32) (payload : Option (List U8))
    (length : U32) (result : SendResult) (notified : ℤ) :
    let s := endpointSend (answering notified) () e sh priority type payload length result
    (s.ret ≠ endpointOk ∧ Uncounted e sh s.endpoint s.shared) ∨
    ∃ p m, s.ret = endpointOk ∧ Fin.ofNat 4 priority = p ∧
      Counted e sh role p m (fun s =>
        (s.countEnqueue (ringCount ((sh.tx role p).published m))).countNotify notified)
        s.endpoint s.shared := by
  intro s
  rcases endpointEnqueue_counted hrole sh priority type payload length result with
    ⟨hret, hnone⟩ | ⟨p, m, hret, hp, hone⟩
  · left
    have hs : s = _ := if_pos hret
    rw [hs]
    exact ⟨hret, hnone⟩
  · right
    have hs : s = _ := if_neg (not_not.mpr hret)
    rw [hs]
    refine ⟨p, m, rfl, hp, hone.room, hone.shared, ?_⟩
    dsimp only [Endpoint.modifyStats, answering]
    rw [hone.stats, hp, Function.update_idem, Function.update_self]

theorem EndpointRole.eq_or_eq_peer (role other : EndpointRole) :
    other = role ∨ other = role.peer := by
  cases role <;> cases other <;> simp [EndpointRole.peer]

/-- A call by `role` has to keep the two directions that `role` takes part in. -/
theorem Channel.Sound.side {c : Channel} (h : c.Sound) {role : EndpointRole} {e : Endpoint}
    {sh : Shared} {highest : EndpointRole → Priority → ℤ}
    (hid : e.identity = (c.endpoint role).identity) (hheader : sh.header = c.shared.header)
    (hout : ∀ p, Balanced (e.stats p) ((c.endpoint role.peer).stats p) (sh.tx role p)
      (highest role p))
    (hin : ∀ p, Balanced ((c.endpoint role.peer).stats p) (e.stats p) (sh.rx role p)
      (highest role.peer p)) :
    Channel.Sound ⟨Function.update c.endpoint role e, sh, highest⟩ := by
  have hpeer : Function.update c.endpoint role e role.peer = c.endpoint role.peer :=
    Function.update_of_ne role.peer_ne _ _
  refine ⟨fun other => ?_, fun other => ?_, fun other p => ?_⟩ <;>
    rcases role.eq_or_eq_peer other with rfl | rfl <;> dsimp only
  · rw [Function.update_self]
    exact (congrArg Prod.fst hid).trans (h.role other)
  · rw [hpeer]
    exact h.role role.peer
  · rw [Function.update_self, endpointSessionValid_congr hid hheader]
    exact h.session other
  · rw [hpeer, endpointSessionValid_congr rfl hheader]
    exact h.session role.peer
  · rw [Function.update_self, hpeer]
    exact hout p
  · rw [hpeer, EndpointRole.peer_peer, Function.update_self, Shared.tx_peer]
    exact hin p

theorem Channel.Sound.send {c : Channel} (h : c.Sound) (role : EndpointRole) (priority : ℕ)
    (type : U32) (payload : Option (List U8)) (length : U32) (result : SendResult)
    (notified : ℤ) : (c.step (.send role priority type payload length result notified)).Sound := by
  have hid := identity_endpointSend (answering notified) () (c.endpoint role) c.shared priority type
    payload length result
  have hheader := header_endpointSend (answering notified) () (c.endpoint role) c.shared priority
    type payload length result
  have hback : ∀ p, Balanced ((c.endpoint role.peer).stats p) ((c.endpoint role).stats p)
      (c.shared.rx role p) (c.highest role.peer p) := fun p => by
    simpa using h.balanced role.peer p
  unfold Channel.step
  dsimp only
  rcases endpointSend_counted (h.role role) c.shared priority type payload length result
    notified with ⟨hret, hnone⟩ | ⟨p, m, hret, rfl, hone⟩
  · rw [if_neg hret]
    refine h.side hid hheader (fun p => ?_) fun p => ?_
    · rw [hnone.shared]
      exact (h.balanced role p).congr (hnone.tx p) (sameRx_refl _)
    · rw [hnone.shared]
      exact (hback p).congr (sameTx_refl _) (hnone.rx p)
  · rw [if_pos hret]
    refine h.side hid hheader (fun q => ?_) fun q => ?_
    · rw [hone.stats, hone.shared, Shared.tx_setTx, raise, Function.update_self]
      by_cases hq : q = Fin.ofNat 4 priority
      · subst hq
        rw [Function.update_self, Function.update_self, Function.update_self]
        exact (h.balanced role _).send hone.room m notified
      · rw [Function.update_of_ne hq, Function.update_of_ne hq, Function.update_of_ne hq]
        exact h.balanced role q
    · rw [hone.shared, Shared.rx_setTx, raise, Function.update_of_ne role.peer_ne, hone.stats]
      refine (hback q).congr (sameTx_refl _) ?_
      by_cases hq : q = Fin.ofNat 4 priority
      · subst hq
        rw [Function.update_self]
        obtain ⟨-, -, htaken, hinc⟩ := PriorityStats.countNotify_tx
          (((c.endpoint role).stats (Fin.ofNat 4 priority)).countEnqueue
            (ringCount ((c.shared.tx role (Fin.ofNat 4 priority)).published m))) notified
        obtain ⟨-, -, htaken', hinc'⟩ := ((c.endpoint role).stats
          (Fin.ofNat 4 priority)).countEnqueue_tx
            (ringCount ((c.shared.tx role (Fin.ofNat 4 priority)).published m))
        exact ⟨htaken.trans htaken', hinc.trans hinc'⟩
      · rw [Function.update_of_ne hq]
        exact sameRx_refl _

theorem Channel.Sound.receive {c : Channel} (h : c.Sound) (role : EndpointRole) (priority : ℕ)
    (message : Message) : (c.step (.receive role priority message)).Sound := by
  have hback : ∀ p, Balanced ((c.endpoint role.peer).stats p) ((c.endpoint role).stats p)
      (c.shared.rx role p) (c.highest role.peer p) := fun p => by
    simpa using h.balanced role.peer p
  have hkept : Channel.Sound ⟨Function.update c.endpoint role (c.endpoint role), c.shared,
      c.highest⟩ := by
    rwa [Function.update_eq_self]
  unfold Channel.step
  dsimp only
  by_cases hp : priority < 4
  · obtain ⟨p, rfl⟩ : ∃ p : Priority, priority = p := ⟨⟨priority, hp⟩, rfl⟩
    cases hq : (c.shared.rx role p).contents with
    | nil =>
      rw [endpointReceive_nil (h.role role) (h.session role) (hback p).inRange hq]
      exact hkept
    | cons m q =>
      have hcommit : m.commit = m.sequence := (hback p).committed m (hq ▸ List.mem_cons_self)
      obtain ⟨hpop, htail, -⟩ := ringPop_cons (hback p).inRange hq hcommit message
      rw [endpointReceive_of_valid (h.role role) (h.session role), hpop]
      dsimp only
      refine h.side rfl (Shared.header_setRx _ _ _ _) (fun q' => ?_) fun q' => ?_
      · rw [Shared.tx_setRx]
        refine (h.balanced role q').congr ?_ (sameRx_refl _)
        refine (c.endpoint role).stats_modifyStats p q' sameTx_refl fun s => ?_
        obtain ⟨henq, hrung, hhigh⟩ := s.countReceive_tx (receiveResult _ (frameCheck m) m)
        exact ⟨henq, hrung, hhigh⟩
      · rw [Shared.rx_setRx]
        dsimp only [Endpoint.modifyStats]
        by_cases hqp : q' = p
        · subst hqp
          rw [Function.update_self, Function.update_self]
          obtain ⟨htaken, hinc⟩ := ((c.endpoint role).stats q').countReceive_taken
            (c.endpoint role).generation m
          exact (hback q').receive hq htail htaken hinc
        · rw [Function.update_of_ne hqp, Function.update_of_ne hqp]
          exact hback q'
  · have hbad : endpointReceive (c.endpoint role) c.shared priority message =
        ⟨endpointInvalid, c.endpoint role, c.shared, message⟩ := by
      unfold endpointReceive
      simp only [h.role role, hp, dite_false]
    rw [hbad]
    exact hkept

theorem Channel.Sound.corrupt {c : Channel} (h : c.Sound) (role : EndpointRole) (p : Priority)
    (i : Fin 8) (generation type length : U32) (payload : Fin 28 → U8) (crc32 : U32) :
    (c.step (.corrupt role p i generation type length payload crc32)).Sound := by
  unfold Channel.step
  dsimp only
  refine ⟨h.role, fun other => ?_, fun other q => ?_⟩
  · dsimp only
    rw [endpointSessionValid_congr rfl (Shared.header_setTx _ _ _ _)]
    exact h.session other
  · dsimp only
    rcases role.eq_or_eq_peer other with rfl | rfl
    · rw [Shared.tx_setTx]
      by_cases hq : q = p
      · subst hq
        rw [Function.update_self]
        exact (h.balanced other q).corrupt i generation type length payload crc32
      · rw [Function.update_of_ne hq]
        exact h.balanced other q
    · rw [Shared.tx_peer, Shared.rx_setTx, ← Shared.tx_peer]
      exact h.balanced role.peer q

theorem Channel.Sound.step {c : Channel} (h : c.Sound) (call : Call) : (c.step call).Sound := by
  cases call with
  | send role priority type payload length result notified =>
    exact h.send role priority type payload length result notified
  | receive role priority message => exact h.receive role priority message
  | corrupt role p i generation type length payload crc32 =>
    exact h.corrupt role p i generation type length payload crc32

theorem Channel.Sound.run {c : Channel} (h : c.Sound) (calls : List Call) : (c.run calls).Sound := by
  induction calls generalizing c with
  | nil => exact h
  | cons call calls ih => exact ih (h.step call)

/-- In every run, for each direction and priority: what was counted in and not counted out is what
the ring holds, nothing was found uncommitted, every frame was notified once, and the high-water
mark is the largest ring count after a send. -/
theorem statistics_account_for_every_frame {sh : Shared} (hfresh : sh.Fresh)
    (endpoint : EndpointRole → Endpoint) (calls : List Call) (role : EndpointRole) (p : Priority) :
    let c := (Channel.bound endpoint sh).run calls
    let sender := (c.endpoint role).stats p
    let receiver := (c.endpoint role.peer).stats p
    let ring := c.shared.tx role p
    sender.txEnqueued -
        (receiver.rxOk + receiver.rxBadCrc + receiver.rxInvalid + receiver.rxStale) =
        BitVec.ofInt 32 (ringCount ring) ∧
      0 ≤ ringCount ring ∧ ringCount ring ≤ 7 ∧
      receiver.rxIncomplete = 0 ∧
      sender.notifySent + sender.notifyCoalesced + sender.notifyFailed = sender.txEnqueued ∧
      (sender.txHighWater.toNat : ℤ) = c.highest role p := by
  intro c sender receiver ring
  have hb : Balanced sender receiver ring (c.highest role p) :=
    ((hfresh.sound endpoint).run calls).balanced role p
  have hcount : ringCount ring = ring.depth := hb.inRange.ringCount_eq
  have hlt := ring.depth_lt
  have hle := hb.highest_le
  have hnonneg := hb.highest_nonneg
  refine ⟨?_, by omega, by omega, hb.complete, hb.rung, ?_⟩
  · have hbalance : sender.txEnqueued = receiver.rxOk + receiver.rxBadCrc + receiver.rxInvalid +
      receiver.rxStale + BitVec.ofNat 32 ring.depth := hb.balance
    rw [hbalance, hcount, BitVec.ofInt_natCast, add_sub_cancel_left]
  · rw [hb.highWater, BitVec.toNat_ofInt]
    omega

theorem freshShared_fresh {generation : U32} (h : generation ≠ 0) :
    (freshShared generation).Fresh :=
  ⟨rfl, rfl, h, fun role _ => by cases role <;> rfl⟩

def damagedPing : List Call :=
  [.send .linux 1 msgPing none 0 SendResult.zero notifySent,
    .corrupt .linux 1 0 1 msgPong 0 (fun _ => 0) 0, .receive .cpu3 1 Message.zero]

theorem statistics_account_for_damagedPing :
    let c := (Channel.bound (fun _ => Endpoint.zero) (freshShared 1)).run damagedPing
    (freshShared 1).Fresh ∧ ((c.endpoint .cpu3).stats 1).rxIncomplete = 0 ∧
      (((c.endpoint .linux).stats 1).txHighWater.toNat : ℤ) = c.highest .linux 1 := by
  have hfresh : (freshShared 1).Fresh := freshShared_fresh (by decide)
  have h := statistics_account_for_every_frame hfresh (fun _ => Endpoint.zero) damagedPing .linux 1
  exact ⟨hfresh, h.2.2.2.1, h.2.2.2.2.2⟩

end Lzamp.Mailmsg
