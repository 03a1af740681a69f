import Mathlib.Data.List.Induction
import Mathlib.Data.Stream.Init
import Mathlib.Order.Basic

namespace Lzamp.Lib

/-- What a run leaves on the record. -/
inductive BusEvent (A V : Type) where
  | read (addr : A) (value : V)
  | write (value : V) (addr : A)
  | delay (usec : ℕ)
  | expire
deriving DecidableEq

/-- Driver code over registers at addresses `A` with values `V`: a tree of bus operations that goes
on with whatever the device answers to a read.  `expire` marks the place where a polling loop gives
up and does nothing on the bus. -/
inductive Bus (A V α : Type) : Type where
  | done (a : α)
  | read (addr : A) (k : V → Bus A V α)
  | write (value : V) (addr : A) (k : Bus A V α)
  | delay (usec : ℕ) (k : Bus A V α)
  | expire (k : Bus A V α)

namespace Bus

variable {A V α β γ : Type}

def bind : Bus A V α → (α → Bus A V β) → Bus A V β
  | done a, f => f a
  | read addr k, f => read addr fun v => (k v).bind f
  | write v addr k, f => write v addr (k.bind f)
  | delay usec k, f => delay usec (k.bind f)
  | expire k, f => expire (k.bind f)

instance : Monad (Bus A V) where
  pure := done
  bind := Bus.bind

def read32 (addr : A) : Bus A V V := read addr done

def write32 (value : V) (addr : A) : Bus A V Unit := write value addr (done ())

def delayUs (usec : ℕ) : Bus A V Unit := delay usec (done ())

def giveUp : Bus A V Unit := expire (done ())

/-- A finished run: what it did, what it returned, and the reads it left unused. -/
structure Outcome (A V α : Type) where
  events : List (BusEvent A V)
  value : α
  rest : Stream' V

/-- The run in which the reads return `reads`, in order. -/
def run : Bus A V α → Stream' V → Outcome A V α
  | done a, reads => ⟨[], a, reads⟩
  | read addr k, reads =>
    let r := (k reads.head).run reads.tail
    { r with events := .read addr reads.head :: r.events }
  | write v addr k, reads =>
    let r := k.run reads
    { r with events := .write v addr :: r.events }
  | delay usec k, reads =>
    let r := k.run reads
    { r with events := .delay usec :: r.events }
  | expire k, reads =>
    let r := k.run reads
    { r with events := .expire :: r.events }

@[simp] theorem run_pure (a : α) (reads : Stream' V) :
    (pure a : Bus A V α).run reads = ⟨[], a, reads⟩ := rfl

@[simp] theorem run_read32 (addr : A) (reads : Stream' V) :
    (read32 addr).run reads = ⟨[.read addr reads.head], reads.head, reads.tail⟩ := rfl

@[simp] theorem run_write32 (v : V) (addr : A) (reads : Stream' V) :
    (write32 v addr).run reads = ⟨[.write v addr], (), reads⟩ := rfl

@[simp] theorem run_delayUs (usec : ℕ) (reads : Stream' V) :
    (delayUs usec : Bus A V Unit).run reads = ⟨[.delay usec], (), reads⟩ := rfl

@[simp] theorem run_giveUp (reads : Stream' V) :
    (giveUp : Bus A V Unit).run reads = ⟨[.expire], (), reads⟩ := rfl

theorem run_bind (p : Bus A V α) (f : α → Bus A V β) (reads : Stream' V) :
    (p >>= f).run reads =
      { (f (p.run reads).value).run (p.run reads).rest with
        events := (p.run reads).events ++
          ((f (p.run reads).value).run (p.run reads).rest).events } := by
  change (p.bind f).run reads = _
  induction p generalizing reads with
  | done a => rfl
  | read addr k ih => simp only [bind, run, ih, List.cons_append]
  | write v addr k ih => simp only [bind, run, ih, List.cons_append]
  | delay usec k ih => simp only [bind, run, ih, List.cons_append]
  | expire k ih => simp only [bind, run, ih, List.cons_append]

theorem run_forM_write32 {ι : Type} (xs : List ι) (v : ι → V) (addr : ι → A)
    (reads : Stream' V) :
    (xs.forM fun i => write32 (v i) (addr i) : Bus A V PUnit).run reads =
      ⟨xs.map fun i => .write (v i) (addr i), ⟨⟩, reads⟩ := by
  induction xs with
  | nil => rfl
  | cons i xs ih =>
    change (write32 (v i) (addr i) >>= fun _ => xs.forM fun j => write32 (v j) (addr j)).run
      reads = _
    rw [run_bind, run_write32, ih]
    rfl

/-- Every run of `p`, whatever its reads return, does and returns something that meets `Q`. -/
def Ensures (p : Bus A V α) (Q : List (BusEvent A V) → α → Prop) : Prop :=
  ∀ reads, Q (p.run reads).events (p.run reads).value

theorem Ensures.mono {p : Bus A V α} {Q R : List (BusEvent A V) → α → Prop} (h : p.Ensures Q)
    (hQR : ∀ es a, Q es a → R es a) : p.Ensures R :=
  fun reads => hQR _ _ (h reads)

theorem Ensures.and {p : Bus A V α} {Q R : List (BusEvent A V) → α → Prop} (hQ : p.Ensures Q)
    (hR : p.Ensures R) : p.Ensures fun es a => Q es a ∧ R es a :=
  fun reads => ⟨hQ reads, hR reads⟩

theorem Ensures.bind {p : Bus A V α} {f : α → Bus A V β} {Q : List (BusEvent A V) → α → Prop}
    {R : List (BusEvent A V) → β → Prop} (hp : p.Ensures Q)
    (hf : ∀ es a, Q es a → (f a).Ensures fun es' b => R (es ++ es') b) : (p >>= f).Ensures R := by
  intro reads
  rw [run_bind]
  exact hf _ _ (hp reads) _

theorem Ensures.after {p : Bus A V α} {f : α → Bus A V β} {R : List (BusEvent A V) → β → Prop}
    (hR : ∀ es es' b, R es' b → R (es ++ es') b) (hf : ∀ a, (f a).Ensures R) :
    (p >>= f).Ensures R :=
  Ensures.bind (Q := fun _ _ => True) (fun _ => trivial) fun es a _ => (hf a).mono (hR es)

theorem Ensures.write32_bind {v : V} {addr : A} {f : Unit → Bus A V α}
    {Q : List (BusEvent A V) → α → Prop}
    (h : (f ()).Ensures fun es a => Q (.write v addr :: es) a) : (write32 v addr >>= f).Ensures Q :=
  h

theorem Ensures.bind_pure {p : Bus A V α} {Q : List (BusEvent A V) → Prop}
    (h : p.Ensures fun es _ => Q es) (g : α → β) :
    (p >>= fun a => pure (g a)).Ensures fun es _ => Q es := by
  intro reads
  rw [run_bind]
  simpa using h reads

/-- Every run of `p` returns something that meets `Q`. -/
abbrev Returns (Q : α → Prop) (p : Bus A V α) : Prop := p.Ensures fun _ a => Q a

theorem returns_pure {Q : α → Prop} {a : α} (h : Q a) : (pure a : Bus A V α).Returns Q :=
  fun _ => h

theorem Returns.after {p : Bus A V α} {f : α → Bus A V β} {R : β → Prop}
    (hf : ∀ a, (f a).Returns R) : (p >>= f).Returns R :=
  Ensures.after (fun _ _ _ h => h) hf

theorem Returns.bind {p : Bus A V α} {f : α → Bus A V β} {Q : α → Prop} {R : β → Prop}
    (hp : p.Returns Q) (hf : ∀ a, Q a → (f a).Returns R) : (p >>= f).Returns R :=
  Ensures.bind hp fun _ a ha reads => hf a ha reads

/-- Every write of every run of `p` meets `ok`. -/
def WritesOnly (ok : V → A → Prop) (p : Bus A V α) : Prop :=
  p.Ensures fun es _ => ∀ v addr, .write v addr ∈ es → ok v addr

section WritesOnly

variable {ok : V → A → Prop}

theorem WritesOnly.bind_of {p : Bus A V α} {f : α → Bus A V β} {Q : α → Prop}
    (hp : p.WritesOnly ok) (hQ : p.Returns Q) (hf : ∀ a, Q a → (f a).WritesOnly ok) :
    (p >>= f).WritesOnly ok := by
  refine Ensures.bind (Ensures.and hp hQ) fun es a hes reads v addr hmem => ?_
  rcases List.mem_append.mp hmem with hmem | hmem
  · exact hes.1 v addr hmem
  · exact hf a hes.2 reads v addr hmem

theorem WritesOnly.bind {p : Bus A V α} {f : α → Bus A V β} (hp : p.WritesOnly ok)
    (hf : ∀ a, (f a).WritesOnly ok) : (p >>= f).WritesOnly ok :=
  WritesOnly.bind_of (Q := fun _ => True) hp (fun _ => trivial) fun a _ => hf a

@[simp] theorem writesOnly_pure (a : α) : (pure a : Bus A V α).WritesOnly ok := by
  intro reads v addr hmem
  simp at hmem

@[simp] theorem writesOnly_write32 (v : V) (addr : A) :
    (write32 v addr).WritesOnly ok ↔ ok v addr := by
  constructor
  · intro h
    exact h (Stream'.const v) v addr (by simp)
  · intro h reads v' addr' hmem
    simp only [run_write32, List.mem_singleton, BusEvent.write.injEq] at hmem
    rwa [hmem.1, hmem.2]

@[simp] theorem writesOnly_write32_bind (v : V) (addr : A) (f : Unit → Bus A V α) :
    (write32 v addr >>= f).WritesOnly ok ↔ ok v addr ∧ (f ()).WritesOnly ok := by
  constructor
  · intro h
    refine ⟨h (Stream'.const v) v addr (by simp [run_bind]), fun reads v' addr' hmem => ?_⟩
    exact h reads v' addr' (by simp [run_bind, hmem])
  · rintro ⟨hok, hf⟩
    exact WritesOnly.bind ((writesOnly_write32 v addr).mpr hok) fun _ => hf

@[simp] theorem writesOnly_read32_bind (addr : A) (f : V → Bus A V α) :
    (read32 addr >>= f).WritesOnly ok ↔ ∀ v, (f v).WritesOnly ok := by
  constructor
  · intro h v reads v' addr' hmem
    exact h (Stream'.cons v reads) v' addr' (by simp [run_bind, hmem])
  · intro hf reads v' addr' hmem
    simp only [run_bind, run_read32, List.cons_append, List.nil_append, List.mem_cons,
      reduceCtorEq, false_or] at hmem
    exact hf _ _ _ _ hmem

@[simp] theorem writesOnly_delayUs_bind (usec : ℕ) (f : Unit → Bus A V α) :
    (delayUs usec >>= f).WritesOnly ok ↔ (f ()).WritesOnly ok := by
  simp [WritesOnly, Ensures, run_bind]

@[simp] theorem writesOnly_giveUp_bind (f : Unit → Bus A V α) :
    (giveUp >>= f).WritesOnly ok ↔ (f ()).WritesOnly ok := by
  simp [WritesOnly, Ensures, run_bind]

end WritesOnly

section Does

variable {ok ok' : V → A → Prop} {Q Q' : Prop → α → Prop} {p : Bus A V α}

/-- Every write of every run of `p` meets `ok`, and what the run returns meets `Q`, which is told
whether a loop gave up. -/
def Does (ok : V → A → Prop) (Q : Prop → α → Prop) (p : Bus A V α) : Prop :=
  p.Ensures fun es a => (∀ v addr, .write v addr ∈ es → ok v addr) ∧ Q (.expire ∈ es) a

theorem Does.writesOnly (h : p.Does ok Q) : p.WritesOnly ok := fun reads => (h reads).1

theorem Does.ensures (h : p.Does ok Q) : p.Ensures fun es a => Q (.expire ∈ es) a :=
  fun reads => (h reads).2

theorem Does.returns {R : α → Prop} (h : p.Does ok Q) (hR : ∀ gaveUp a, Q gaveUp a → R a) :
    p.Returns R :=
  fun reads => hR _ _ (h reads).2

theorem Does.mono (h : p.Does ok Q) (hok : ∀ v addr, ok v addr → ok' v addr)
    (hQ : ∀ gaveUp a, Q gaveUp a → Q' gaveUp a) : p.Does ok' Q' :=
  fun reads => ⟨fun v addr hmem => hok v addr ((h reads).1 v addr hmem), hQ _ _ (h reads).2⟩

/-- Something gave up in a sequence if it did in one of its parts. -/
theorem Does.bind {f : α → Bus A V β} {R : Prop → β → Prop} (hp : p.Does ok Q)
    (hf : ∀ gaveUp a, Q gaveUp a → (f a).Does ok fun later b => R (gaveUp ∨ later) b) :
    (p >>= f).Does ok R := by
  refine Ensures.bind hp fun es a hes reads => ⟨fun v addr hmem => ?_, ?_⟩
  · rcases List.mem_append.mp hmem with hmem | hmem
    · exact hes.1 v addr hmem
    · exact (hf _ a hes.2 reads).1 v addr hmem
  · rw [List.mem_append]
    exact (hf _ a hes.2 reads).2

@[simp] theorem does_pure [Inhabited V] (a : α) : (pure a : Bus A V α).Does ok Q ↔ Q False a := by
  simp [Does, Ensures]

@[simp] theorem does_write32_bind (v : V) (addr : A) (f : Unit → Bus A V α) :
    (write32 v addr >>= f).Does ok Q ↔ ok v addr ∧ (f ()).Does ok Q := by
  constructor
  · intro h
    refine ⟨(h (Stream'.const v)).1 v addr (by simp [run_bind]), fun reads => ?_⟩
    have hrun := h reads
    simp only [run_bind, run_write32, List.cons_append, List.nil_append, List.mem_cons,
      reduceCtorEq, false_or] at hrun
    exact ⟨fun v' addr' hmem => hrun.1 v' addr' (.inr hmem), hrun.2⟩
  · rintro ⟨hok, hf⟩ reads
    simp only [run_bind, run_write32, List.cons_append, List.nil_append, List.mem_cons,
      BusEvent.write.injEq, reduceCtorEq, false_or]
    refine ⟨?_, (hf reads).2⟩
    rintro v' addr' (⟨rfl, rfl⟩ | hmem)
    · exact hok
    · exact (hf reads).1 v' addr' hmem

@[simp] theorem does_read32_bind (addr : A) (f : V → Bus A V α) :
    (read32 addr >>= f).Does ok Q ↔ ∀ v, (f v).Does ok Q := by
  constructor
  · intro h v reads
    simpa [run_bind] using h (Stream'.cons v reads)
  · intro hf reads
    simpa [run_bind] using hf reads.head reads.tail

@[simp] theorem does_delayUs_bind (usec : ℕ) (f : Unit → Bus A V α) :
    (delayUs usec >>= f).Does ok Q ↔ (f ()).Does ok Q := by
  simp [Does, Ensures, run_bind]

@[simp] theorem does_giveUp_bind (f : Unit → Bus A V α) :
    (giveUp >>= f).Does ok Q ↔ (f ()).Does ok fun _ a => Q True a := by
  simp [Does, Ensures, run_bind]

theorem does_forM_write32_bind {ι : Type} {xs : List ι} {v : ι → V} {addr : ι → A}
    {f : PUnit → Bus A V α} (hok : ∀ i ∈ xs, ok (v i) (addr i)) (hf : (f ⟨⟩).Does ok Q) :
    ((xs.forM fun i => write32 (v i) (addr i)) >>= f).Does ok Q := by
  intro reads
  rw [run_bind, run_forM_write32]
  refine ⟨fun v' addr' hmem => ?_, by simpa using (hf reads).2⟩
  rcases List.mem_append.mp hmem with hmem | hmem
  · obtain ⟨i, hi, heq⟩ := List.mem_map.mp hmem
    cases heq
    exact hok i hi
  · exact (hf reads).1 v' addr' hmem

end Does

/-- Every event of every run of `p` meets `ok`. -/
def EventsAll (ok : BusEvent A V → Prop) (p : Bus A V α) : Prop :=
  p.Ensures fun es _ => ∀ e ∈ es, ok e

section EventsAll

variable {ok : BusEvent A V → Prop}

theorem EventsAll.bind {p : Bus A V α} {f : α → Bus A V β} (hp : p.EventsAll ok)
    (hf : ∀ a, (f a).EventsAll ok) : (p >>= f).EventsAll ok := by
  refine Ensures.bind hp fun es a hes reads e hmem => ?_
  rcases List.mem_append.mp hmem with hmem | hmem
  · exact hes e hmem
  · exact hf a reads e hmem

theorem eventsAll_pure (a : α) : (pure a : Bus A V α).EventsAll ok := by
  intro reads e hmem
  cases hmem

theorem eventsAll_read32 {addr : A} (h : ∀ v, ok (.read addr v)) : (read32 addr).EventsAll ok := by
  intro reads e hmem
  rw [List.mem_singleton.mp hmem]
  exact h _

theorem eventsAll_write32 {v : V} {addr : A} (h : ok (.write v addr)) :
    (write32 v addr).EventsAll ok := by
  intro reads e hmem
  rw [List.mem_singleton.mp hmem]
  exact h

theorem eventsAll_delayUs {usec : ℕ} (h : ok (.delay usec)) :
    (delayUs usec : Bus A V Unit).EventsAll ok := by
  intro reads e hmem
  rw [List.mem_singleton.mp hmem]
  exact h

theorem eventsAll_giveUp (h : ok .expire) : (giveUp : Bus A V Unit).EventsAll ok := by
  intro reads e hmem
  rw [List.mem_singleton.mp hmem]
  exact h

end EventsAll

end Bus

/-- The value that a register was last given. -/
def lastWrite {A V : Type} [DecidableEq A] (addr : A) (es : List (BusEvent A V)) : Option V :=
  es.foldl (fun last e =>
    match e with
    | .write v a => if a = addr then some v else last
    | _ => last) none

section LastWrite

variable {A V : Type} [DecidableEq A] (addr : A)

theorem lastWrite_concat (a : A) (v : V) (es : List (BusEvent A V)) :
    lastWrite addr (es ++ [.write v a]) = if a = addr then some v else lastWrite addr es := by
  rw [lastWrite, List.foldl_append]
  rfl

theorem lastWrite_append {es' : List (BusEvent A V)} {v : V} (h : lastWrite addr es' = some v)
    (es : List (BusEvent A V)) : lastWrite addr (es ++ es') = some v := by
  induction es' using List.reverseRecOn with
  | nil => cases h
  | append_singleton es' e ih =>
    rw [lastWrite, List.foldl_append] at h
    rw [← List.append_assoc, lastWrite, List.foldl_append]
    cases e with
    | write w a =>
      dsimp only [List.foldl_cons, List.foldl_nil] at h ⊢
      split_ifs at h ⊢ with ha
      · exact h
      · exact ih h
    | read => exact ih h
    | delay => exact ih h
    | expire => exact ih h

end LastWrite

end Lzamp.Lib
