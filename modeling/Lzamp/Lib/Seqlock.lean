import Mathlib.Data.BitVec
import Mathlib.Logic.Function.Iterate
import Lzamp.Lib.Trace

namespace Lzamp.Lib.Seqlock

variable {φ : Type}

structure Line (φ : Type) where
  commit : BitVec 32
  commitInv : BitVec 32
  magic : BitVec 32
  field : φ → BitVec 32

/-- The fields in the order they are stored and loaded. -/
structure Layout (φ : Type) where
  magic : BitVec 32
  stores : List φ
  loads : List φ
  mem_stores : ∀ f, f ∈ stores
  mem_loads : ∀ f, f ∈ loads

/-- The next commit number, which is never zero. -/
def nextCommit (c : BitVec 32) : BitVec 32 := if c + 1 = 0 then c + 1 + 1 else c + 1

structure Publication (φ : Type) where
  commit : BitVec 32
  values : φ → BitVec 32

/-- The next store of a publication, which clears the commit word first and sets it last. -/
inductive Store (φ : Type) where
  | clear
  | magic
  | field (f : φ) (rest : List φ)
  | inverse
  | commit

def Store.fields : List φ → Store φ
  | [] => .inverse
  | f :: fs => .field f fs

structure Snapshot (φ : Type) where
  first : BitVec 32
  magic : BitVec 32
  field : φ → BitVec 32
  second : BitVec 32
  inverse : BitVec 32

def Snapshot.zero : Snapshot φ := ⟨0, 0, fun _ => 0, 0, 0⟩

/-- The next load of a reader. -/
inductive Load (φ : Type) where
  | first
  | magic
  | field (f : φ) (rest : List φ)
  | second
  | inverse

def Load.fields : List φ → Load φ
  | [] => .second
  | f :: fs => .field f fs

inductive Reader (φ : Type) where
  | idle
  | loading (next : Load φ) (got : Snapshot φ)
  | done (got : Snapshot φ)

/-- `published` records the publications that are complete. -/
structure State (φ : Type) where
  line : Line φ
  counter : BitVec 32
  busy : Option (Publication φ × Store φ)
  published : List (Publication φ)
  reader : Reader φ

inductive Act (φ : Type) where
  | publish (values : φ → BitVec 32)
  | store
  | read
  | load

section Steps

variable [DecidableEq φ]

/-- One store: the line after it and the store that follows. -/
def Layout.store (l : Layout φ) (p : Publication φ) (x : Line φ) : Store φ → Line φ × Option (Store φ)
  | .clear => ({ x with commit := 0 }, some .magic)
  | .magic => ({ x with magic := l.magic }, some (.fields l.stores))
  | .field f fs => ({ x with field := Function.update x.field f (p.values f) }, some (.fields fs))
  | .inverse => ({ x with commitInv := ~~~ p.commit }, some .commit)
  | .commit => ({ x with commit := p.commit }, none)

def Layout.load (l : Layout φ) (x : Line φ) (got : Snapshot φ) : Load φ → Reader φ
  | .first => .loading .magic { got with first := x.commit }
  | .magic => .loading (.fields l.loads) { got with magic := x.magic }
  | .field f fs =>
    .loading (.fields fs) { got with field := Function.update got.field f (x.field f) }
  | .second => .loading .inverse { got with second := x.commit }
  | .inverse => .done { got with inverse := x.commitInv }

def Layout.step (l : Layout φ) (s : State φ) : Act φ → Option (State φ)
  | .publish values =>
    match s.busy with
    | some _ => none
    | none =>
      let c := nextCommit s.counter
      some { s with counter := c, busy := some (⟨c, values⟩, .clear) }
  | .store =>
    match s.busy with
    | none => none
    | some (p, next) =>
      match l.store p s.line next with
      | (line, some next) => some { s with line := line, busy := some (p, next) }
      | (line, none) => some { s with line := line, busy := none, published := s.published ++ [p] }
  | .read =>
    match s.reader with
    | .idle => some { s with reader := .loading .first .zero }
    | _ => none
  | .load =>
    match s.reader with
    | .loading next got => some { s with reader := l.load s.line got next }
    | _ => none

def Layout.Step (l : Layout φ) (s : State φ) (a : Act φ) (t : State φ) : Prop := l.step s a = some t

end Steps

/-- What the reader accepts. -/
def Layout.valid (l : Layout φ) (got : Snapshot φ) : Bool :=
  got.magic = l.magic && got.first ≠ 0 && got.first = got.second && got.inverse = ~~~ got.second

/-- A cleared line that nobody uses yet. -/
structure State.Cleared (s : State φ) : Prop where
  commit : s.line.commit = 0
  busy : s.busy = none
  published : s.published = []

theorem toNat_nextCommit (c : BitVec 32) :
    (nextCommit c).toNat = c.toNat % (2 ^ 32 - 1) + 1 := by
  have hc := c.isLt
  unfold nextCommit
  split_ifs with h
  · have hmax : c.toNat = 2 ^ 32 - 1 := by bv_omega
    rw [h, hmax]
    decide
  · have hlt : c.toNat < 2 ^ 32 - 1 := by bv_omega
    have hone : (1 : BitVec 32).toNat = 1 := rfl
    rw [Nat.mod_eq_of_lt hlt, BitVec.toNat_add, hone]
    omega

theorem toNat_iterate_nextCommit (c : BitVec 32) (k : ℕ) :
    (nextCommit^[k + 1] c).toNat = (c.toNat + k) % (2 ^ 32 - 1) + 1 := by
  induction k with
  | zero => exact toNat_nextCommit c
  | succ k ih =>
    rw [Function.iterate_succ_apply', toNat_nextCommit, ih]
    omega

theorem iterate_nextCommit_ne_zero (c : BitVec 32) (k : ℕ) : nextCommit^[k + 1] c ≠ 0 := by
  intro h
  have := congrArg BitVec.toNat h
  rw [toNat_iterate_nextCommit] at this
  simp at this

/-- A number does not come back within `2 ^ 32 - 1` publications. -/
theorem iterate_nextCommit_inj {c : BitVec 32} {i j : ℕ} (hij : i ≤ j) (hlt : j < i + (2 ^ 32 - 1))
    (h : nextCommit^[i + 1] c = nextCommit^[j + 1] c) : i = j := by
  have hnat := congrArg BitVec.toNat h
  rw [toNat_iterate_nextCommit, toNat_iterate_nextCommit] at hnat
  omega

/-- The line shows the last publication, or none. -/
def State.Settled (s : State φ) : Prop :=
  s.line.commit = 0 ∨ ∃ older p, s.published = older ++ [p] ∧ s.line.commit = p.commit ∧
    s.line.field = p.values

/-- What a publication has stored when `next` is its next store. -/
def Stored (s : State φ) (p : Publication φ) : Store φ → Prop
  | .clear => s.Settled
  | .magic => s.line.commit = 0
  | .field f fs => s.line.commit = 0 ∧ ∀ g, g ∉ f :: fs → s.line.field g = p.values g
  | .inverse => s.line.commit = 0 ∧ s.line.field = p.values
  | .commit => s.line.commit = 0 ∧ s.line.field = p.values

/-- The publications are numbered one after the other from `c₀`. -/
structure PublisherInv (c₀ : BitVec 32) (s : State φ) : Prop where
  numbered : ∀ i p, s.published[i]? = some p → p.commit = nextCommit^[i + 1] c₀
  idle : s.busy = none → s.counter = nextCommit^[s.published.length] c₀ ∧ s.Settled
  busy : ∀ p next, s.busy = some (p, next) →
    p.commit = s.counter ∧ s.counter = nextCommit^[s.published.length + 1] c₀ ∧ Stored s p next

theorem State.Cleared.publisherInv {s : State φ} (h : s.Cleared) : PublisherInv s.counter s where
  numbered i p hp := by
    rw [h.published] at hp
    cases hp
  idle _ := by
    rw [h.published]
    exact ⟨rfl, .inl h.commit⟩
  busy p next hp := by
    rw [h.busy] at hp
    cases hp

theorem PublisherInv.line {c₀ : BitVec 32} {s : State φ} (h : PublisherInv c₀ s)
    (hne : s.line.commit ≠ 0) : ∃ older p, s.published = older ++ [p] ∧ s.line.commit = p.commit ∧
      s.line.field = p.values := by
  cases hbusy : s.busy with
  | none => exact (h.idle hbusy).2.resolve_left hne
  | some b =>
    obtain ⟨p, next⟩ := b
    have hstored := (h.busy p next hbusy).2.2
    cases next with
    | clear => exact hstored.resolve_left hne
    | magic => exact absurd hstored hne
    | field => exact absurd hstored.1 hne
    | inverse => exact absurd hstored.1 hne
    | commit => exact absurd hstored.1 hne

theorem PublisherInv.congr {c₀ : BitVec 32} {s t : State φ} (h : PublisherInv c₀ s)
    (hline : t.line = s.line) (hcounter : t.counter = s.counter) (hbusy : t.busy = s.busy)
    (hpublished : t.published = s.published) : PublisherInv c₀ t := by
  obtain ⟨line, counter, busy, published, reader⟩ := t
  obtain rfl : line = s.line := hline
  obtain rfl : counter = s.counter := hcounter
  obtain rfl : busy = s.busy := hbusy
  obtain rfl : published = s.published := hpublished
  refine ⟨h.numbered, h.idle, fun p next hp => ?_⟩
  obtain ⟨hcommit, hcount, hstored⟩ := h.busy p next hp
  refine ⟨hcommit, hcount, ?_⟩
  cases next <;> exact hstored

theorem Stored.fields {s : State φ} {p : Publication φ} {fs : List φ} (hcommit : s.line.commit = 0)
    (hfields : ∀ g, g ∉ fs → s.line.field g = p.values g) : Stored s p (.fields fs) := by
  cases fs with
  | nil => exact ⟨hcommit, funext fun g => hfields g (by simp)⟩
  | cons f fs => exact ⟨hcommit, hfields⟩

theorem PublisherInv.advance {c₀ : BitVec 32} {s : State φ} (h : PublisherInv c₀ s)
    {p : Publication φ} {next : Store φ} (hbusy : s.busy = some (p, next)) {line : Line φ}
    {next' : Store φ} (hstored : Stored { s with line := line, busy := some (p, next') } p next') :
    PublisherInv c₀ { s with line := line, busy := some (p, next') } where
  numbered := h.numbered
  idle hnone := by cases hnone
  busy q next₁ hq := by
    obtain ⟨rfl, rfl⟩ := Prod.mk.inj (Option.some.inj hq)
    obtain ⟨hcommit, hcount, -⟩ := h.busy p next hbusy
    exact ⟨hcommit, hcount, hstored⟩

theorem PublisherInv.complete {c₀ : BitVec 32} {s : State φ} (h : PublisherInv c₀ s)
    {p : Publication φ} (hbusy : s.busy = some (p, .commit)) :
    PublisherInv c₀ { s with
      line := { s.line with commit := p.commit }
      busy := none
      published := s.published ++ [p] } := by
  obtain ⟨hcommit, hcount, hstored⟩ := h.busy p .commit hbusy
  refine ⟨fun i q hq => ?_, fun _ => ⟨?_, .inr ⟨s.published, p, rfl, rfl, hstored.2⟩⟩, ?_⟩
  · rw [List.getElem?_append] at hq
    split at hq
    · exact h.numbered i q hq
    · next hi =>
      have hlast : i = s.published.length := by
        by_contra hne
        rw [List.getElem?_eq_none (by simp; omega)] at hq
        cases hq
      rw [hlast, Nat.sub_self] at hq
      obtain rfl : p = q := Option.some.inj hq
      rw [hcommit, hcount, hlast]
  · rw [List.length_append, List.length_singleton]
    exact hcount
  · intro q next hq
    cases hq

section Publisher

variable [DecidableEq φ] {l : Layout φ} {c₀ : BitVec 32} {s t : State φ}

theorem PublisherInv.publish (h : PublisherInv c₀ s) {values : φ → BitVec 32}
    (hstep : l.Step s (.publish values) t) :
    PublisherInv c₀ t ∧ t.line = s.line ∧ t.published = s.published ∧ t.reader = s.reader := by
  unfold Layout.Step Layout.step at hstep
  cases hbusy : s.busy with
  | some b =>
    simp only [hbusy] at hstep
    cases hstep
  | none =>
    simp only [hbusy] at hstep
    obtain rfl := Option.some.inj hstep
    obtain ⟨hcount, hsettled⟩ := h.idle hbusy
    refine ⟨⟨h.numbered, (by intro hnone; cases hnone), fun p next hp => ?_⟩, rfl, rfl, rfl⟩
    obtain ⟨rfl, rfl⟩ := Prod.mk.inj (Option.some.inj hp)
    refine ⟨rfl, ?_, hsettled⟩
    change nextCommit s.counter = _
    rw [hcount, Function.iterate_succ_apply']

theorem PublisherInv.store (h : PublisherInv c₀ s) (hstep : l.Step s .store t) :
    PublisherInv c₀ t ∧ t.reader = s.reader ∧
      ((t.published = s.published ∧ (t.line.commit = 0 ∨ t.line.commit = s.line.commit)) ∨
        ∃ p, t.published = s.published ++ [p] ∧ t.line.commit = p.commit) := by
  unfold Layout.Step Layout.step at hstep
  cases hbusy : s.busy with
  | none =>
    simp only [hbusy] at hstep
    cases hstep
  | some b =>
    obtain ⟨p, next⟩ := b
    simp only [hbusy] at hstep
    have hstored := (h.busy p next hbusy).2.2
    cases next with
    | clear =>
      obtain rfl := Option.some.inj hstep
      exact ⟨h.advance hbusy rfl, rfl, .inl ⟨rfl, .inl rfl⟩⟩
    | magic =>
      obtain rfl := Option.some.inj hstep
      refine ⟨h.advance hbusy (.fields hstored fun g hg => ?_), rfl, .inl ⟨rfl, .inr rfl⟩⟩
      exact absurd (l.mem_stores g) hg
    | field f fs =>
      obtain rfl := Option.some.inj hstep
      refine ⟨h.advance hbusy (.fields hstored.1 fun g hg => ?_), rfl, .inl ⟨rfl, .inr rfl⟩⟩
      change Function.update s.line.field f (p.values f) g = p.values g
      by_cases hgf : g = f
      · rw [hgf, Function.update_self]
      · rw [Function.update_of_ne hgf]
        exact hstored.2 g (List.not_mem_cons_of_ne_of_not_mem hgf hg)
    | inverse =>
      obtain rfl := Option.some.inj hstep
      exact ⟨h.advance hbusy hstored, rfl, .inl ⟨rfl, .inr rfl⟩⟩
    | commit =>
      obtain rfl := Option.some.inj hstep
      exact ⟨h.complete hbusy, rfl, .inr ⟨p, rfl, rfl⟩⟩

theorem step_read (hstep : l.Step s .read t) :
    s.reader = .idle ∧ t = { s with reader := .loading .first .zero } := by
  simp only [Layout.Step, Layout.step] at hstep
  split at hstep
  · next hreader => exact ⟨hreader, (Option.some.inj hstep).symm⟩
  · cases hstep

theorem step_load (hstep : l.Step s .load t) :
    ∃ next got, s.reader = .loading next got ∧ t = { s with reader := l.load s.line got next } := by
  simp only [Layout.Step, Layout.step] at hstep
  split at hstep
  · next next got hreader => exact ⟨next, got, hreader, (Option.some.inj hstep).symm⟩
  · cases hstep

theorem PublisherInv.step (h : PublisherInv c₀ s) {a : Act φ} (hstep : l.Step s a t) :
    PublisherInv c₀ t := by
  cases a with
  | publish values => exact (h.publish hstep).1
  | store => exact (h.store hstep).1
  | read =>
    obtain ⟨-, rfl⟩ := step_read hstep
    exact h.congr rfl rfl rfl rfl
  | load =>
    obtain ⟨next, got, -, rfl⟩ := step_load hstep
    exact h.congr rfl rfl rfl rfl

end Publisher

/-- The first commit word names a publication, and as long as the line still shows its number the
fields loaded so far are its values. -/
def Matches (base : ℕ) (s : State φ) (got : Snapshot φ) (loaded : φ → Prop) : Prop :=
  got.first = 0 ∨ ∃ k p, s.published[k]? = some p ∧ base ≤ k + 1 ∧ p.commit = got.first ∧
    (s.line.commit = got.first → ∀ f, loaded f → got.field f = p.values f)

def Reader.Ok (base : ℕ) (s : State φ) : Reader φ → Prop
  | .idle => True
  | .loading .first _ => True
  | .loading .magic got => Matches base s got fun _ => False
  | .loading (.field f fs) got => Matches base s got (· ∉ f :: fs)
  | .loading .second got => Matches base s got fun _ => True
  | .loading .inverse got | .done got =>
    got.first = 0 ∨ ∃ p ∈ s.published, p.commit = got.first ∧
      (got.second = got.first → got.field = p.values)

/-- The state of a read that began with `base` publications complete. -/
structure ReadInv (c₀ : BitVec 32) (base : ℕ) (s : State φ) : Prop where
  publisher : PublisherInv c₀ s
  base_le : base ≤ s.published.length
  reader : s.published.length < base + (2 ^ 32 - 1) → s.reader.Ok base s

theorem PublisherInv.values_eq {c₀ : BitVec 32} {base k : ℕ} {s : State φ} {p : Publication φ}
    (h : PublisherInv c₀ s) (hfew : s.published.length < base + (2 ^ 32 - 1))
    (hp : s.published[k]? = some p) (hbase : base ≤ k + 1) (hcommit : s.line.commit = p.commit) :
    s.line.field = p.values := by
  have hk := (List.getElem?_eq_some_iff.mp hp).1
  have hnumber := h.numbered k p hp
  have hne : s.line.commit ≠ 0 := by
    rw [hcommit, hnumber]
    exact iterate_nextCommit_ne_zero c₀ k
  obtain ⟨older, q, hpublished, hq, hfield⟩ := h.line hne
  have hlength : s.published.length = older.length + 1 := by
    rw [hpublished, List.length_append, List.length_singleton]
  have hlast : s.published[older.length]? = some q := by
    rw [hpublished, List.getElem?_append_right (Nat.le_refl _), Nat.sub_self]
    rfl
  have hsame : k = older.length := by
    refine iterate_nextCommit_inj (c := c₀) (by omega) (by omega) ?_
    rw [← hnumber, ← h.numbered _ q hlast, ← hcommit, hq]
  rw [hsame, hlast] at hp
  rw [hfield, Option.some.inj hp]

theorem Matches.mono {base : ℕ} {s t : State φ} {got : Snapshot φ} {loaded : φ → Prop}
    (h : Matches base s got loaded)
    (hpublished : ∀ (k : ℕ) p, s.published[k]? = some p → t.published[k]? = some p)
    (hvisible : ∀ (k : ℕ) p, s.published[k]? = some p → base ≤ k + 1 → t.line.commit = p.commit →
      s.line.commit = p.commit) : Matches base t got loaded := by
  refine h.imp_right ?_
  rintro ⟨k, p, hp, hbase, hcommit, hfields⟩
  refine ⟨k, p, hpublished k p hp, hbase, hcommit, fun hshown => hfields ?_⟩
  rw [← hcommit] at hshown ⊢
  exact hvisible k p hp hbase hshown

theorem Reader.Ok.mono {base : ℕ} {s t : State φ} {r : Reader φ} (h : r.Ok base s)
    (hpublished : ∀ (k : ℕ) p, s.published[k]? = some p → t.published[k]? = some p)
    (hvisible : ∀ (k : ℕ) p, s.published[k]? = some p → base ≤ k + 1 → t.line.commit = p.commit →
      s.line.commit = p.commit) : r.Ok base t := by
  -- The last two stages no longer depend on what the line shows.
  have hlast : ∀ got : Snapshot φ, Reader.Ok base s (.done got) → Reader.Ok base t (.done got) := by
    intro got hdone
    refine hdone.imp_right ?_
    rintro ⟨p, hp, hgot⟩
    obtain ⟨k, hk⟩ := List.mem_iff_getElem?.mp hp
    exact ⟨p, List.mem_of_getElem? (hpublished k p hk), hgot⟩
  cases r with
  | idle => trivial
  | done got => exact hlast got h
  | loading next got =>
    cases next with
    | first => trivial
    | magic => exact Matches.mono h hpublished hvisible
    | field f fs => exact Matches.mono h hpublished hvisible
    | second => exact Matches.mono h hpublished hvisible
    | inverse => exact hlast got h

theorem Reader.ok_fields {base : ℕ} {s : State φ} {got : Snapshot φ} {fs : List φ}
    (h : Matches base s got (· ∉ fs)) : Reader.Ok base s (.loading (.fields fs) got) := by
  cases fs with
  | cons f fs => exact h
  | nil =>
    refine h.imp_right ?_
    rintro ⟨k, p, hp, hbase, hcommit, hfields⟩
    exact ⟨k, p, hp, hbase, hcommit, fun hshown f _ => hfields hshown f (by simp)⟩

section Reading

variable [DecidableEq φ] {l : Layout φ} {c₀ : BitVec 32} {base : ℕ} {s t : State φ}

theorem PublisherInv.store_visible (h : PublisherInv c₀ s) (hstep : l.Step s .store t)
    (hfew : t.published.length < base + (2 ^ 32 - 1)) {k : ℕ} {p : Publication φ}
    (hp : s.published[k]? = some p) (hbase : base ≤ k + 1) (hshown : t.line.commit = p.commit) :
    s.line.commit = p.commit := by
  have hnumber := h.numbered k p hp
  have hk := (List.getElem?_eq_some_iff.mp hp).1
  obtain ⟨ht, -, ⟨-, hzero | hsame⟩ | ⟨q, hpublished, hq⟩⟩ := h.store hstep
  · refine absurd ?_ (iterate_nextCommit_ne_zero c₀ k)
    rw [← hnumber, ← hshown, hzero]
  · rw [← hsame, hshown]
  · have hlast : t.published[s.published.length]? = some q := by
      rw [hpublished, List.getElem?_append_right (Nat.le_refl _), Nat.sub_self]
      rfl
    have hlength : t.published.length = s.published.length + 1 := by
      rw [hpublished, List.length_append, List.length_singleton]
    have hback : k = s.published.length := by
      refine iterate_nextCommit_inj (c := c₀) hk.le (by omega) ?_
      rw [← hnumber, ← ht.numbered _ q hlast, ← hq, hshown]
    omega

theorem ReadInv.store (h : ReadInv c₀ base s) (hstep : l.Step s .store t) : ReadInv c₀ base t := by
  obtain ⟨ht, hreader, hline⟩ := h.publisher.store hstep
  have hgrown : ∃ new, t.published = s.published ++ new := by
    rcases hline with ⟨hsame, -⟩ | ⟨p, hp, -⟩
    · exact ⟨[], by rw [hsame, List.append_nil]⟩
    · exact ⟨[p], hp⟩
  obtain ⟨new, hnew⟩ := hgrown
  have hlength : s.published.length ≤ t.published.length := by
    rw [hnew, List.length_append]
    exact Nat.le_add_right _ _
  refine ⟨ht, h.base_le.trans hlength, fun hfew => ?_⟩
  rw [hreader]
  refine (h.reader (hlength.trans_lt hfew)).mono (fun k p hp => ?_) fun k p hp hbase hshown =>
    h.publisher.store_visible hstep hfew hp hbase hshown
  rw [hnew, List.getElem?_append_left (List.getElem?_eq_some_iff.mp hp).1]
  exact hp

theorem Reader.Ok.load (h : PublisherInv c₀ s) (hbase : base ≤ s.published.length)
    (hfew : s.published.length < base + (2 ^ 32 - 1)) {next : Load φ} {got : Snapshot φ}
    (hok : Reader.Ok base s (.loading next got)) : (l.load s.line got next).Ok base s := by
  cases next with
  | first =>
    by_cases hzero : s.line.commit = 0
    · exact .inl hzero
    · obtain ⟨older, p, hpublished, hcommit, -⟩ := h.line hzero
      refine .inr ⟨older.length, p, ?_, ?_, hcommit.symm, fun _ f hf => hf.elim⟩
      · rw [hpublished, List.getElem?_append_right (Nat.le_refl _), Nat.sub_self]
        rfl
      · rw [hpublished, List.length_append, List.length_singleton] at hbase
        exact hbase
  | magic =>
    refine ok_fields (hok.imp_right ?_)
    rintro ⟨k, p, hp, hk, hcommit, -⟩
    exact ⟨k, p, hp, hk, hcommit, fun _ f hf => absurd (l.mem_loads f) hf⟩
  | field f fs =>
    refine ok_fields (hok.imp_right ?_)
    rintro ⟨k, p, hp, hk, hcommit, hfields⟩
    refine ⟨k, p, hp, hk, hcommit, fun hshown g hg => ?_⟩
    change Function.update got.field f (s.line.field f) g = p.values g
    by_cases hgf : g = f
    · rw [hgf, Function.update_self, h.values_eq hfew hp hk (hshown.trans hcommit.symm)]
    · rw [Function.update_of_ne hgf]
      exact hfields hshown g (List.not_mem_cons_of_ne_of_not_mem hgf hg)
  | second =>
    refine hok.imp_right ?_
    rintro ⟨k, p, hp, -, hcommit, hfields⟩
    exact ⟨p, List.mem_of_getElem? hp, hcommit,
      fun hshown => funext fun f => hfields hshown f trivial⟩
  | inverse => exact hok

theorem ReadInv.step (h : ReadInv c₀ base s) {a : Act φ} (hstep : l.Step s a t) :
    ReadInv c₀ base t := by
  have hbase := h.base_le
  cases a with
  | publish values =>
    obtain ⟨ht, hline, hpublished, hreader⟩ := h.publisher.publish hstep
    rw [← hpublished] at hbase
    refine ⟨ht, hbase, fun hfew => ?_⟩
    rw [hreader]
    rw [hpublished] at hfew
    refine (h.reader hfew).mono (fun k p hp => ?_) fun k p _ _ hshown => ?_
    · rw [hpublished]
      exact hp
    · rw [← hline]
      exact hshown
  | store => exact h.store hstep
  | read =>
    obtain ⟨-, rfl⟩ := step_read hstep
    exact ⟨h.publisher.congr rfl rfl rfl rfl, hbase, fun _ => trivial⟩
  | load =>
    obtain ⟨next, got, hreader, rfl⟩ := step_load hstep
    refine ⟨h.publisher.congr rfl rfl rfl rfl, hbase, fun hfew => ?_⟩
    have hok := h.reader hfew
    rw [hreader] at hok
    exact (Reader.Ok.load (l := l) h.publisher hbase hfew hok).mono (fun _ _ hp => hp)
      fun _ _ _ _ hshown => hshown

/-- A line that started cleared is published any number of times; during one read of it fewer than
`2 ^ 32 - 1` publications complete.  What an accepted read loaded is the publication whose number it
reports. -/
theorem accepted_of_trace {s₀ : State φ} (hcleared : s₀.Cleared) {before during : List (Act φ)}
    (hbefore : Trace l.Step s₀ before s) (hidle : s.reader = .idle)
    (hduring : Trace l.Step s during t)
    (hfew : t.published.length < s.published.length + (2 ^ 32 - 1)) {got : Snapshot φ}
    (hdone : t.reader = .done got) (hvalid : l.valid got = true) :
    ∃ p ∈ t.published, p.commit = got.second ∧ got.field = p.values := by
  have hpublisher : PublisherInv s₀.counter s :=
    Trace.invariant (fun _ _ _ hu hstep => hu.step hstep) hbefore hcleared.publisherInv
  have hstart : ReadInv s₀.counter s.published.length s := by
    refine ⟨hpublisher, Nat.le_refl _, fun _ => ?_⟩
    rw [hidle]
    trivial
  have hend := Trace.invariant (fun _ _ _ hu hstep => ReadInv.step hu hstep) hduring hstart
  have hok := hend.reader hfew
  rw [hdone] at hok
  simp only [Layout.valid, Bool.and_eq_true, decide_eq_true_eq] at hvalid
  obtain ⟨⟨⟨-, hne⟩, hsame⟩, -⟩ := hvalid
  obtain hzero | ⟨p, hp, hcommit, hfield⟩ := hok
  · exact absurd hzero hne
  · exact ⟨p, hp, hcommit.trans hsame, hfield hsame.symm⟩

/-- Every publication in hand or complete was asked for in the run. -/
theorem publish_mem_of_trace {s₀ : State φ} (hcleared : s₀.Cleared) {as : List (Act φ)}
    (h : Trace l.Step s₀ as s) :
    (∀ p ∈ s.published, .publish p.values ∈ as) ∧
      ∀ p next, s.busy = some (p, next) → .publish p.values ∈ as := by
  refine Trace.history_invariant (I := fun as s => (∀ p ∈ s.published, .publish p.values ∈ as) ∧
    ∀ p next, s.busy = some (p, next) → .publish p.values ∈ as) ?_ ?_ h
  · rw [hcleared.published, hcleared.busy]
    exact ⟨by simp, by simp⟩
  · rintro as s a t - ⟨hpublished, hbusy⟩ hstep
    have hold : ∀ {b : Act φ}, b ∈ as → b ∈ as ++ [a] := fun hb => List.mem_append_left _ hb
    cases a with
    | publish values =>
      simp only [Layout.Step, Layout.step] at hstep
      split at hstep
      · cases hstep
      · obtain rfl := Option.some.inj hstep
        refine ⟨fun p hp => hold (hpublished p hp), fun p next hp => ?_⟩
        obtain ⟨rfl, -⟩ := Prod.mk.inj (Option.some.inj hp)
        exact List.mem_append_right _ (List.mem_singleton_self _)
    | store =>
      simp only [Layout.Step, Layout.step] at hstep
      split at hstep
      · cases hstep
      · next p next hb =>
        have hp := hbusy p next hb
        split at hstep
        · obtain rfl := Option.some.inj hstep
          refine ⟨fun q hq => hold (hpublished q hq), fun q next' hq => ?_⟩
          obtain ⟨rfl, -⟩ := Prod.mk.inj (Option.some.inj hq)
          exact hold hp
        · obtain rfl := Option.some.inj hstep
          refine ⟨fun q hq => ?_, fun q next' hq => by cases hq⟩
          obtain hq | hq := List.mem_append.mp hq
          · exact hold (hpublished q hq)
          · obtain rfl := List.mem_singleton.mp hq
            exact hold hp
    | read =>
      obtain ⟨-, rfl⟩ := step_read hstep
      exact ⟨fun p hp => hold (hpublished p hp), fun p next hp => hold (hbusy p next hp)⟩
    | load =>
      obtain ⟨next, got, -, rfl⟩ := step_load hstep
      exact ⟨fun p hp => hold (hpublished p hp), fun p next hp => hold (hbusy p next hp)⟩

end Reading

end Lzamp.Lib.Seqlock
