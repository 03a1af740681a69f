import Lzamp.Mailmsg.Endpoint

namespace Lzamp.Mailmsg

/-- The notification backend with a record of what it was asked for. -/
def recording {ν : Type} (notify : ν → Priority → Int × ν) (n : ν × List Priority)
    (p : Priority) : Int × ν × List Priority :=
  ((notify n.1 p).1, (notify n.1 p).2, n.2 ++ [p])

/-- `m` is queued behind the frames of `tx[p]`, and the page is otherwise the same. -/
structure Appended (role : EndpointRole) (p : Priority) (m : Message) (sh sh' : Shared) : Prop where
  contents : (sh'.tx role p).contents = (sh.tx role p).contents ++ [m]
  others : sh' = sh.setTx role p (sh'.tx role p)

/-- The arguments pass the entry check, so `send` initialises the result. -/
abbrev ArgumentsOk (priority : ℕ) (payload : Option (List U8)) (length : U32) : Prop :=
  priority < 4 ∧ length ≤ 28#32 ∧ (length = 0 ∨ payload ≠ none)

/-- The statistics after a refused send: a full ring is counted. -/
def refusedStats (e : Endpoint) (priority : ℕ) (ret : Int) (p : Priority) : PriorityStats :=
  if p.val = priority ∧ ret = ringFull then
    { e.stats p with txFull := (e.stats p).txFull + 1 }
  else e.stats p

theorem refusedStats_of_ne {e : Endpoint} {ret : Int} (h : ret ≠ ringFull) (priority : ℕ) :
    refusedStats e priority ret = e.stats := by
  funext p
  exact if_neg fun hf => h hf.2

theorem settlePush_refused_stats {ret : Int} (h : ret ≠ ringOk) (e : Endpoint) (sh : Shared)
    (role : EndpointRole) (p : Priority) (sequence : U32) (ring : Ring) :
    (settlePush (endpointNextSequence e).2 sh role p sequence (ret, ring)).endpoint.stats =
      refusedStats e p ret := by
  rw [settlePush, if_pos h]
  by_cases hfull : ret = ringFull
  · funext q
    dsimp only
    rw [if_pos hfull, refusedStats, Endpoint.modifyStats]
    by_cases hq : q = p
    · rw [hq, if_pos ⟨rfl, hfull⟩]
      exact Function.update_self ..
    · rw [if_neg fun hf => hq (Fin.ext hf.1)]
      exact Function.update_of_ne hq ..
  · rw [refusedStats_of_ne hfull]
    dsimp only
    rw [if_neg hfull]
    rfl

/-- What a refused enqueue counts and reports. -/
structure Settled (e : Endpoint) (priority : ℕ) (payload : Option (List U8)) (length : U32)
    (result : SendResult) (q : Enqueued) : Prop where
  stats : q.endpoint.stats = refusedStats e priority q.ret
  sequence : result.sequence = 0 ∨ ArgumentsOk priority payload length → q.result.sequence = 0

section Refused

variable {e : Endpoint} {sh : Shared} {role : EndpointRole} {priority : ℕ} {type : U32}
  {payload : Option (List U8)} {length : U32} {result : SendResult}

theorem Settled.of_argument (h : ¬ ArgumentsOk priority payload length) :
    Settled e priority payload length result ⟨endpointInvalid, result, e, sh⟩ where
  stats := (refusedStats_of_ne (by decide : endpointInvalid ≠ ringFull) priority).symm
  sequence hzero := hzero.elim id fun hok => absurd hok h

theorem Settled.of_push {p : Priority} {ret : Int} (h : ret ≠ ringOk) (ring : Ring) :
    Settled e p payload length result (settlePush (endpointNextSequence e).2 sh role p
      (endpointNextSequence e).1 (ret, ring)) where
  stats := by
    rw [settlePush_refused_stats h, settlePush, if_pos h]
  sequence _ := by
    rw [settlePush, if_pos h]

theorem endpointEnqueue_settled (hrole : e.role = some role)
    (h : (endpointEnqueue e sh priority type payload length result).ret ≠ endpointOk) :
    Settled e priority payload length result
      (endpointEnqueue e sh priority type payload length result) := by
  unfold endpointEnqueue at h ⊢
  simp only [hrole] at h ⊢
  by_cases hp : priority < 4
  · rw [dif_pos hp] at h ⊢
    split_ifs at h ⊢ with hargs hsession
    · refine .of_argument fun hok => ?_
      rcases hargs with hlong | ⟨hlength, hnull⟩
      · exact absurd hok.2.1 (by simpa using hlong)
      · exact hok.2.2.elim hlength fun hp => hp hnull
    · have hfull : endpointSessionValid e sh ≠ ringFull :=
        (lt_of_le_of_lt (endpointSessionValid_le hsession) (by decide)).ne
      exact ⟨(refusedStats_of_ne hfull priority).symm, fun _ => rfl⟩
    · rw [enqueueFrame, ringPush_eq] at h ⊢
      split_ifs at h ⊢
      · exact .of_push (p := ⟨priority, hp⟩) (by decide : ringInvalid ≠ ringOk) _
      · exact .of_push (p := ⟨priority, hp⟩) (by decide : ringFull ≠ ringOk) _
      · exact absurd rfl h
  · rw [dif_neg hp]
    exact .of_argument fun hok => hp hok.1

theorem EnqueueAccepted.appended {p : Priority} {m : Message} {q : Enqueued}
    (h : EnqueueAccepted e sh role p m q) (hring : (sh.tx role p).InRange) :
    Appended role p m.seal sh q.shared := by
  have hroom := hring.depth_lt_seven h.room
  have htx : q.shared.tx role p = (sh.tx role p).published m := by
    rw [h.shared, Shared.tx_setTx, Function.update_self]
  constructor
  · rw [htx]
    exact hring.contents_publish hroom m.seal
  · rw [htx]
    exact h.shared

end Refused

theorem Appended.ne {role : EndpointRole} {p : Priority} {m : Message} {sh sh' : Shared}
    (h : Appended role p m sh sh') : sh' ≠ sh := by
  rintro rfl
  have hlength := congrArg List.length h.contents
  rw [List.length_append, List.length_singleton] at hlength
  omega

/-- A send returns 0 exactly if it queued one frame and asked for one notification; the result then
names the frame.  Otherwise the page, the backend and the statistics are as before, apart from the
count of full rings. -/
theorem endpoint_send_atomic {ν : Type} (notify : ν → Priority → Int × ν) (n : ν) {e : Endpoint}
    {role : EndpointRole} (hrole : e.role = some role) {sh : Shared} {priority : ℕ}
    (hring : ∀ h : priority < 4, (sh.tx role ⟨priority, h⟩).InRange) (type : U32)
    (payload : Option (List U8)) (length : U32) (result : SendResult) :
    let s := endpointSend (recording notify) (n, []) e sh priority type payload length result
    (s.ret = endpointOk ↔ ∃ h : priority < 4, s.notifier.2 = [⟨priority, h⟩] ∧
      ∃ m, Appended role ⟨priority, h⟩ m sh s.shared) ∧
    (s.ret = endpointOk → ∃ h : priority < 4, ∃ m, Appended role ⟨priority, h⟩ m sh s.shared ∧
      s.result.sequence = m.sequence ∧ m.sequence ≠ 0) ∧
    (s.ret ≠ endpointOk → s.shared = sh ∧ s.notifier = (n, []) ∧
      s.endpoint.stats = refusedStats e priority s.ret ∧
      (result.sequence = 0 ∨ ArgumentsOk priority payload length → s.result.sequence = 0)) := by
  intro s
  rcases endpointEnqueue_cases e sh priority type payload length result with hq | ⟨role', hp, hq⟩
  · have hs : s = ⟨_, _, _, _, (n, [])⟩ := if_pos hq.ret
    have hsettled := endpointEnqueue_settled hrole hq.ret
    refine ⟨⟨fun hret => ?_, ?_⟩, fun hret => ?_, fun _ => ?_⟩
    · rw [hs] at hret
      exact absurd hret hq.ret
    · rintro ⟨_, _, m, happended⟩
      rw [hs] at happended
      exact absurd hq.shared happended.ne
    · rw [hs] at hret
      exact absurd hret hq.ret
    · rw [hs]
      exact ⟨hq.shared, rfl, hsettled.stats, hsettled.sequence⟩
  · obtain rfl : role' = role := Option.some.inj (hq.role_eq.symm.trans hrole)
    have hprio : Fin.ofNat 4 priority = ⟨priority, hp⟩ := Fin.ext (Nat.mod_eq_of_lt hp)
    have hs : s = ⟨endpointOk, _, _, _, _⟩ := if_neg (not_not.mpr hq.ret)
    have happended := hq.appended (hring hp)
    have hret : s.ret = endpointOk := by rw [hs]
    have hshared : s.shared =
        (endpointEnqueue e sh priority type payload length result).shared := by rw [hs]
    rw [← hshared] at happended
    refine ⟨⟨fun _ => ⟨hp, ?_, _, happended⟩, fun _ => hret⟩,
      fun _ => ⟨hp, _, happended, ?_, endpointNextSequence_ne_zero e⟩, fun hne => absurd hret hne⟩
    · rw [hs, ← hprio]
      rfl
    · rw [hs]
      exact congrArg SendResult.sequence hq.result

/-- A PING on p1 of a fresh session whose doorbell fails. -/
theorem endpoint_send_atomic_ping :
    let sh := { Shared.zero with
      magic := protocolMagic, version := protocolVersion, generation := 7 }
    let e := (endpointBind Endpoint.zero sh .linux).2
    let s := endpointSend (recording fun n _ => (-1, n)) ((), []) e sh 1 msgPing
      (some [0x2a, 0, 0, 0]) 4 SendResult.zero
    s.ret = endpointOk ∧ ∃ h : 1 < 4, ∃ m, Appended .linux ⟨1, h⟩ m sh s.shared ∧
      s.result.sequence = m.sequence ∧ m.sequence ≠ 0 := by
  intro sh e s
  have hret : s.ret = endpointOk := by decide
  have hring : ∀ h : 1 < 4, (sh.tx .linux ⟨1, h⟩).InRange := fun _ => Ring.zero_inRange
  exact ⟨hret, (endpoint_send_atomic _ () (by rfl : e.role = some .linux) hring msgPing
    (some [0x2a, 0, 0, 0]) 4 SendResult.zero).2.1 hret⟩

end Lzamp.Mailmsg
