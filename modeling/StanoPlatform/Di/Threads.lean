import StanoPlatform.Lib.Holding
import StanoPlatform.Di.Coherence
import StanoPlatform.Di.Service

/-!
# `Di/Threads.lean` — many threads, one container

Threads share the slots and interleave freely. A thread is the code it is running and, below it,
the factories it is in the middle of, each waiting for the `get_or_init` it made; the slots it is
initialising are exactly those factories' (`Thread.holds`). A `get_or_init` on a slot that is
being initialised does not step — by anyone, the initialiser included.

What a step does to the slots it does to the thread's own list of them (`Effect`), and every link
of that list is a call some factory made. So the slot a thread waits for lies below everything it
is initialising, in the graph of who asks for what — and there is no descending for ever.

Of `std::sync::OnceLock` the file takes what its documentation says: one caller of `get_or_init`
runs the closure and all others block until it is over; if it panics the lock is empty again and one
of those that wait goes on; a call from inside the closure never returns. Fairness is not assumed. A
step is atomic where it touches a slot, and steps of different threads come in any order.
-/

set_option autoImplicit false

namespace StanoPlatform
namespace Di

open Lib Relation

/-- The code waiting for a `get_or_init` to come back. -/
inductive Caller where
  -- the thread's own program
  | client (k : Resolution → Prog Unit)
  -- the factory of `id`, itself called by `below`
  | factory (id : TypeId) (f : Factory) (k : Resolution → Prog AnyArc) (below : Caller)

/-- A thread: what is left of the code it is running. -/
inductive Thread where
  | client (p : Prog Unit)
  | factory (id : TypeId) (f : Factory) (p : Prog AnyArc) (caller : Caller)

def Caller.resume : Caller → Resolution → Thread
  | .client k, r => .client (k r)
  | .factory id f k below, r => .factory id f (k r) below

/-- The slots being initialised for this caller, innermost first. -/
def Caller.holds : Caller → List TypeId
  | .client _ => []
  | .factory id _ _ below => id :: below.holds

namespace Thread

def holds : Thread → List TypeId
  | .client _ => []
  | .factory id _ _ caller => id :: caller.holds

/-- The thread's program is over, by returning or by panicking. -/
def Finished : Thread → Prop
  | .client (.ret _) | .client .panic => True
  | _ => False

/-- The key the thread is about to run `get_or_init` on. -/
def asks? : Thread → Option TypeId
  | .client (.resolve id _) | .factory _ _ (.resolve id _) _ => some id
  | _ => none

/-- It is about to, and another initialisation of that slot is in progress. -/
def Awaits (w : World) (t : Thread) (id : TypeId) : Prop :=
  t.asks? = some id ∧ w.slot id = some .initializing

end Thread

/-- `get_or_init` on behalf of `caller`; `none` while the slot is being initialised. -/
def World.call (w : World) (id : TypeId) (caller : Caller) : Option (World × Thread) :=
  match w.slot id with
  | none => some (w, caller.resume .unregistered)
  | some (.full a) => some (w.hit id a, caller.resume (.ready a))
  | some .initializing => none
  | some .empty =>
    match w.container.factories.get id with
    | none => some (w, caller.resume .panicked)
    | some f => some (w.enter id, .factory id f (f w.now) caller)

/-- One step of a thread; `none` when it is finished or has to wait. -/
def Thread.step (w : World) : Thread → Option (World × Thread)
  | .client (.ret _) | .client .panic => none
  | .client (.peek id k) => some (w, .client (k (w.isSet id)))
  | .client (.resolve id k) => w.call id (.client k)
  | .factory id f (.ret a) caller => some (w.finish id f a, caller.resume (.ready a))
  | .factory id _ .panic caller => some (w.unwind id, caller.resume .panicked)
  | .factory id f (.peek id' k) caller => some (w, .factory id f (k (w.isSet id')) caller)
  | .factory id f (.resolve id' k) caller => w.call id' (.factory id f k caller)

structure Machine (ι : Type) where
  world : World
  threads : ι → Thread

namespace Machine

variable {ι : Type} [DecidableEq ι]

def start (c : Container) (programs : ι → Prog Unit) : Machine ι :=
  ⟨World.start c, fun i => .client (programs i)⟩

inductive Step : Machine ι → Machine ι → Prop
  | thread {m : Machine ι} {w' : World} {t' : Thread} (i : ι)
      (h : (m.threads i).step m.world = some (w', t')) :
      Step m ⟨w', Function.update m.threads i t'⟩

abbrev Steps : Machine ι → Machine ι → Prop := ReflTransGen Step

end Machine

/-! ## What a step can do -/

/-- `p` is what is left of `q` on some branch. -/
structure Prog.Within {α : Type} (p q : Prog α) : Prop where
  resolves : ∀ id, p.Resolves id → q.Resolves id
  returns : ∀ a, p.Returns a → q.Returns a

theorem Prog.Within.refl {α : Type} (p : Prog α) : p.Within p := ⟨fun _ h => h, fun _ h => h⟩

theorem Prog.Within.peek {α : Type} {id : TypeId} {k : Bool → Prog α} {q : Prog α}
    (h : (Prog.peek id k).Within q) (b : Bool) : (k b).Within q :=
  ⟨fun id' hid => h.resolves id' ⟨b, hid⟩, fun a ha => h.returns a ⟨b, ha⟩⟩

theorem Prog.Within.resolve {α : Type} {id : TypeId} {k : Resolution → Prog α} {q : Prog α}
    (h : (Prog.resolve id k).Within q) (r : Resolution) : (k r).Within q :=
  ⟨fun id' hid => h.resolves id' (.inr ⟨r, hid⟩), fun a ha => h.returns a ⟨r, ha⟩⟩

/-- Every waiting factory is a registered one, waiting for what it asked for: `top` is the slot
being initialised for the caller. -/
def Caller.Lawful (factories : HashMap TypeId Factory) : Caller → TypeId → Prop
  | .client _, _ => True
  | .factory id f k below, top => factories.get id = some f ∧
      (∃ now, (f now).Resolves top ∧ ∀ r, (k r).Within (f now)) ∧ below.Lawful factories id

def Thread.Lawful (factories : HashMap TypeId Factory) : Thread → Prop
  | .client _ => True
  | .factory id f p caller => factories.get id = some f ∧ (∃ now, p.Within (f now)) ∧
      caller.Lawful factories id

/-- What a step does to the slots, and to the list of those the thread is initialising. -/
inductive Effect (w : World) : List TypeId → World → List TypeId → Prop
  | same {held : List TypeId} : Effect w held w held
  | hit {held : List TypeId} {id : TypeId} {a : AnyArc} (hs : w.slot id = some (.full a)) :
      Effect w held (w.hit id a) held
  | enter {held : List TypeId} {id : TypeId} {f : Factory} (hs : w.slot id = some .empty)
      (hf : w.container.factories.get id = some f) : Effect w held (w.enter id) (id :: held)
  | finish {held : List TypeId} {id : TypeId} {f : Factory} {now : Nat} {a : AnyArc}
      (hf : w.container.factories.get id = some f) (ha : (f now).Returns a) :
      Effect w (id :: held) (w.finish id f a) held
  | unwind {held : List TypeId} {id : TypeId} : Effect w (id :: held) (w.unwind id) held

@[simp] theorem Caller.holds_resume (caller : Caller) (r : Resolution) :
    (caller.resume r).holds = caller.holds := by
  cases caller <;> rfl

theorem Caller.Lawful.resume {factories : HashMap TypeId Factory} {caller : Caller} {top : TypeId}
    (h : caller.Lawful factories top) (r : Resolution) : (caller.resume r).Lawful factories := by
  cases caller with
  | client k => trivial
  | factory id f k below =>
    obtain ⟨hf, ⟨now, -, hk⟩, hbelow⟩ := h
    exact ⟨hf, ⟨now, hk r⟩, hbelow⟩

theorem World.call_effect {w w' : World} {id : TypeId} (caller : Caller) {t' : Thread}
    (hl : caller.Lawful w.container.factories id) (h : w.call id caller = some (w', t')) :
    t'.Lawful w.container.factories ∧ Effect w caller.holds w' t'.holds := by
  unfold World.call at h
  split at h
  · cases h
    exact ⟨hl.resume _, caller.holds_resume _ ▸ .same⟩
  · rename_i a hs
    cases h
    exact ⟨hl.resume _, caller.holds_resume _ ▸ .hit hs⟩
  · cases h
  · rename_i hs
    split at h
    · cases h
      exact ⟨hl.resume _, caller.holds_resume _ ▸ .same⟩
    · rename_i f hf
      cases h
      exact ⟨⟨hf, ⟨w.now, .refl _⟩, hl⟩, .enter hs hf⟩

/-- **What one step of a thread can do.** -/
theorem Thread.step_effect {w w' : World} {t t' : Thread} (hl : t.Lawful w.container.factories)
    (h : t.step w = some (w', t')) :
    t'.Lawful w.container.factories ∧ Effect w t.holds w' t'.holds := by
  cases t with
  | client p =>
    cases p with
    | ret a => cases h
    | panic => cases h
    | peek id k => cases h; exact ⟨trivial, .same⟩
    | resolve id k => exact World.call_effect (.client k) trivial h
  | factory id f p caller =>
    obtain ⟨hf, ⟨now, hp⟩, hcaller⟩ := hl
    cases p with
    | ret a =>
      cases h
      -- the factory is over: its slot is given back, and its caller goes on
      rw [caller.holds_resume]
      exact ⟨hcaller.resume _, .finish hf (hp.returns a rfl)⟩
    | panic =>
      cases h
      rw [caller.holds_resume]
      exact ⟨hcaller.resume _, .unwind⟩
    | peek id' k => cases h; exact ⟨⟨hf, ⟨now, hp.peek _⟩, hcaller⟩, .same⟩
    | resolve id' k =>
      exact World.call_effect (.factory id f k caller)
        ⟨hf, ⟨now, hp.resolves id' (.inl rfl), hp.resolve⟩, hcaller⟩ h

/-! ## The invariant -/

namespace Machine

variable {ι : Type}

/-- The slots in progress are the ones the threads' factories are building, and every thread's
stack of factories is one that registered factories can make. -/
structure Inv (c : Container) (m : Machine ι) : Prop where
  factories : m.world.container.factories = c.factories
  lawful : ∀ i, (m.threads i).Lawful c.factories
  holding : Holding (fun id => m.world.slot id = some .initializing)
    (fun i => (m.threads i).holds)

theorem inv_start {c : Container} (hidle : (World.start c).Idle) (programs : ι → Prog Unit) :
    Inv c (start c programs) where
  factories := rfl
  lawful _ := trivial
  holding :=
    { nodup := fun _ => List.nodup_nil
      unique := fun i j id h => absurd h (by simp [start, Thread.holds])
      inUse_iff := fun id => ⟨fun h => absurd h (hidle id),
        fun ⟨i, h⟩ => absurd h (by simp [start, Thread.holds])⟩ }

variable [DecidableEq ι]

/-- What a thread does to the slots it does to its own list. -/
theorem holding_of_effect {w w' : World} {holds : ι → List TypeId} {i : ι} {held : List TypeId}
    (hhold : Holding (fun id => w.slot id = some .initializing) holds)
    (heffect : Effect w (holds i) w' held) :
    Holding (fun id => w'.slot id = some .initializing) (Function.update holds i held) ∧
      Ticks w w' := by
  generalize hheld : holds i = own at heffect
  have hsame : Function.update holds i own = holds := by
    rw [← hheld]
    exact Function.update_eq_self i holds
  cases heffect with
  | same =>
    rw [hsame]
    exact ⟨hhold, .refl⟩
  | hit hs =>
    rw [hsame]
    exact ⟨hhold, .single (.hit hs)⟩
  | @enter _ id f hs hf =>
    refine ⟨?_, .single (.enter hs hf)⟩
    rw [← hheld]
    refine hhold.take (by rw [hs]; simp) fun k => ?_
    rw [World.slot_enter]
    by_cases hk : k = id <;> simp [hk]
  | @finish _ id f now a hf ha =>
    -- it is the innermost slot this thread holds, so nobody else has it
    have hbusy := (hhold.inUse_iff id).mpr ⟨i, by rw [hheld]; exact List.mem_cons_self⟩
    refine ⟨hhold.release hheld fun k => ?_, .single (.finish hbusy hf ha)⟩
    rw [World.slot_finish]
    by_cases hk : k = id <;> simp [hk]
  | @unwind _ id =>
    have hbusy := (hhold.inUse_iff id).mpr ⟨i, by rw [hheld]; exact List.mem_cons_self⟩
    refine ⟨hhold.release hheld fun k => ?_, .single (.unwind hbusy)⟩
    rw [World.slot_unwind]
    by_cases hk : k = id <;> simp [hk]

theorem holds_update (threads : ι → Thread) (i : ι) (t : Thread) :
    (fun j => (Function.update threads i t j).holds) =
      Function.update (fun j => (threads j).holds) i t.holds := by
  funext j
  by_cases hj : j = i
  · subst hj
    rw [Function.update_self, Function.update_self]
  · rw [Function.update_of_ne hj, Function.update_of_ne hj]

/-- **Every step keeps the invariant**, and to the slots it is a tick or nothing. -/
theorem Inv.step {c : Container} {m m' : Machine ι} (hm : Inv c m) (h : Step m m') :
    Inv c m' ∧ Ticks m.world m'.world := by
  obtain ⟨i, h⟩ := h
  rename_i w' t'
  obtain ⟨hlawful, heffect⟩ := Thread.step_effect (hm.factories ▸ hm.lawful i) h
  rw [hm.factories] at hlawful
  have hlawful' : ∀ j, (Function.update m.threads i t' j).Lawful c.factories := by
    intro j
    by_cases hj : j = i
    · subst hj
      rw [Function.update_self]
      exact hlawful
    · rw [Function.update_of_ne hj]
      exact hm.lawful j
  obtain ⟨hholding, hticks⟩ := holding_of_effect hm.holding heffect
  exact ⟨⟨hticks.rest.1.trans hm.factories, hlawful', by rw [holds_update]; exact hholding⟩, hticks⟩

/-- **Every interleaving keeps the invariant**, and to the slots it is a sequence of ticks. -/
theorem Inv.steps {c : Container} {m m' : Machine ι} (hm : Inv c m) (h : Steps m m') :
    Inv c m' ∧ Ticks m.world m'.world := by
  induction h with
  | refl => exact ⟨hm, .refl⟩
  | tail _ hstep ih =>
    obtain ⟨hinv, hticks⟩ := ih.1.step hstep
    exact ⟨hinv, ih.2.trans hticks⟩

/-! ## Deadlock -/

end Machine

/-- Whatever a waiting factory holds leads, call by call, to the slot above it. -/
theorem Caller.Lawful.reaches {c : Container} : ∀ {caller : Caller} {top : TypeId},
    caller.Lawful c.factories top →
      ∀ {id : TypeId}, id ∈ caller.holds → TransGen c.Asks id top := by
  intro caller
  induction caller with
  | client k => intro top _ id hid; exact absurd hid (by simp [Caller.holds])
  | factory id' f k below ih =>
    rintro top ⟨hf, ⟨now, htop, -⟩, hbelow⟩ id hid
    have hask : c.Asks id' top := ⟨f, now, hf, htop⟩
    rcases List.mem_cons.mp hid with rfl | hid
    · exact .single hask
    · exact .tail (ih hbelow hid) hask

/-- **What a thread asks for lies below everything it is initialising.** -/
theorem Thread.Lawful.reaches {c : Container} {t : Thread} (h : t.Lawful c.factories)
    {id id' : TypeId} (hid : id ∈ t.holds) (hasks : t.asks? = some id') :
    TransGen c.Asks id id' := by
  cases t with
  | client p => exact absurd hid (by simp [Thread.holds])
  | factory top f p caller =>
    obtain ⟨hf, ⟨now, hp⟩, hcaller⟩ := h
    cases p with
    | resolve id'' k =>
      cases hasks
      have hask : c.Asks top id' := ⟨f, now, hf, hp.resolves id' (.inl rfl)⟩
      rcases List.mem_cons.mp hid with rfl | hid
      · exact .single hask
      · exact .tail (hcaller.reaches hid) hask
    | ret _ | panic | peek _ _ => cases hasks

theorem Thread.step_eq_none {w : World} {t : Thread} (h : t.step w = none) :
    t.Finished ∨ ∃ id, t.Awaits w id := by
  -- the one call that does not step is on a slot that is being filled
  have hcall : ∀ {id caller}, w.call id caller = none → w.slot id = some .initializing := by
    intro id caller h
    unfold World.call at h
    split at h
    · cases h
    · cases h
    · assumption
    · split at h <;> cases h
  cases t with
  | client p =>
    cases p with
    | ret a => exact .inl trivial
    | panic => exact .inl trivial
    | peek id k => cases h
    | resolve id k => exact .inr ⟨id, rfl, hcall h⟩
  | factory id f p caller =>
    cases p with
    | ret a => cases h
    | panic => cases h
    | peek id' k => cases h
    | resolve id' k => exact .inr ⟨id', rfl, hcall h⟩

theorem Thread.not_finished {t : Thread} {id : TypeId} (h : id ∈ t.holds) : ¬ t.Finished := by
  cases t with
  | client p => exact absurd h (by simp [Thread.holds])
  | factory _ f p caller => exact fun hfin => hfin

theorem Thread.Awaits.not_finished {w : World} {t : Thread} {id : TypeId} (h : t.Awaits w id) :
    ¬ t.Finished := by
  have hasks := h.1
  cases t with
  | client p =>
    cases p with
    | resolve id' k => exact fun hfin => hfin
    | ret _ | panic | peek _ _ => cases hasks
  | factory _ f p caller => exact fun hfin => hfin

/-- Only registered types ask for anything, and there are finitely many. -/
theorem Container.asks_wellFounded {c : Container} (hac : Acyclic c.Asks) :
    WellFounded fun b a => c.Asks a b :=
  hac.wellFounded (s := {id | id ∈ c.factories.keys}) (Finset.finite_toSet _)
    (fun _ _ ⟨_, _, hf, _⟩ => Finmap.mem_keys.mpr (HashMap.mem_of_get hf))

namespace Machine

variable {ι : Type} [DecidableEq ι]

/-- **Concurrent resolution never deadlocks.** With an acyclic declared graph and factories that
ask only for what they declare, in every state that any threads running any programs reach by any
interleaving: no thread waits for a slot it is itself initialising, and unless every thread is
finished, some unfinished thread is not waiting — and can step. -/
theorem never_deadlocks {c : Container} (hidle : (World.start c).Idle)
    (hac : Acyclic c.Declares) (hdeclared : ∀ a b, c.Asks a b → c.Declares a b)
    (programs : ι → Prog Unit) {m : Machine ι} (hm : Steps (start c programs) m) :
    (∀ i id, (m.threads i).Awaits m.world id → id ∉ (m.threads i).holds) ∧
    ((∃ i, ¬ (m.threads i).Finished) →
      ∃ i, ¬ (m.threads i).Finished ∧ (∀ id, ¬ (m.threads i).Awaits m.world id) ∧
        ∃ w' t', (m.threads i).step m.world = some (w', t') ∧
          Step m ⟨w', Function.update m.threads i t'⟩) := by
  have hinv := ((inv_start hidle programs).steps hm).1
  have hacAsks : Acyclic c.Asks := hac.mono hdeclared
  constructor
  · intro i id hawait hid
    exact hacAsks id ((hinv.lawful i).reaches hid hawait.1)
  · rintro ⟨i, hi⟩
    by_contra hnone
    push Not at hnone
    -- suppose everybody who is not finished waits for somebody
    have hwaits : ∀ j, ¬ (m.threads j).Finished → ∃ id, (m.threads j).Awaits m.world id := by
      intro j hj
      by_contra hno
      push Not at hno
      rcases hstep : (m.threads j).step m.world with _ | ⟨w', t'⟩
      · rcases Thread.step_eq_none hstep with hfin | ⟨id, hid⟩
        · exact hj hfin
        · exact hno id hid
      · exact hnone j hj hno w' t' hstep (.thread j hstep)
    obtain ⟨id, hid⟩ := hwaits i hi
    -- along the slots that are held and waited for one can only go down, and not for ever
    refine no_circular_wait (Container.asks_wellFounded hacAsks)
      (fun j r => r ∈ (m.threads j).holds) (fun j r => (m.threads j).Awaits m.world r)
      ?_ ?_ ?_ i id hid
    · exact fun _ r hr => (hinv.holding.inUse_iff r).mp hr.2
    · exact fun j r hr => hwaits j (Thread.not_finished hr)
    · exact fun j r r' hr hr' => (hinv.lawful j).reaches hr hr'.1

end Machine

/-- `catch_unwind` around a call whose result nobody needs. -/
def Prog.caught {α : Type} : Prog α → Prog Unit
  | .ret _ | .panic => .ret ()
  | .peek id k => .peek id fun b => (k b).caught
  | .resolve id k => .resolve id fun r => (k r).caught

/-- A thread that makes one call after another, whatever becomes of each. -/
def Call.sequence (c : Container) : List Call → Prog Unit
  | [] => .ret ()
  | call :: calls => do
    (call.prog c).caught
    sequence c calls

def leaf : Service :=
  { structName := "Leaf", path := "Leaf", traitPath := none, fields := [], alloc := fun now => now }

def branch : Service :=
  { structName := "Branch", path := "Branch", traitPath := none
    fields := [.concrete (.named "Leaf") (named_ne_traitObject "Leaf")], alloc := fun now => now }

def pair : Container := Container.built [.registerAll [leaf.register, branch.register]]

theorem generated_pair : pair.Generated fun _ => false :=
  ((Container.generated_new fun _ => false).apply leaf.registration _ _ leaf.deps_registration
    leaf.wrappedFactory_registration).apply branch.registration _ _ branch.deps_registration
      branch.wrappedFactory_registration

/-- One thread is building the leaf for its branch, the other wants the leaf: it waits, and the
first one goes on. -/
theorem never_deadlocks_pair :
    ∃ m : Machine Bool, Machine.Steps (Machine.start pair fun i => Call.sequence pair
        (if i then [.get (.named "Branch")] else [.tryGet (.named "Leaf")])) m ∧
      (m.threads false).Awaits m.world (.named "Leaf") ∧
      ∃ i, ¬ (m.threads i).Finished ∧ ∀ id, ¬ (m.threads i).Awaits m.world id := by
  have hsteps : ∃ m : Machine Bool, Machine.Steps (Machine.start pair fun i =>
      Call.sequence pair (if i then [.get (.named "Branch")] else [.tryGet (.named "Leaf")])) m ∧
      (m.threads false).Awaits m.world (.named "Leaf") :=
    ⟨_, .tail (.single (.thread true rfl)) (.thread true rfl), rfl, rfl⟩
  obtain ⟨m, hm, hawait⟩ := hsteps
  obtain ⟨i, hi, hfree, -⟩ := (Machine.never_deadlocks (World.idle_built _)
    (((Container.wf_built _).detectCycles_eq_nil (Container.registrationOrder _)).mp rfl)
    (fun _ _ => generated_pair.asks) _ hm).2 ⟨false, hawait.not_finished⟩
  exact ⟨m, hm, hawait, i, hi, hfree⟩

/-! ## One thread is the evaluator -/

/-- Steps of one thread that nobody interrupts. -/
abbrev ThreadSteps : World × Thread → World × Thread → Prop :=
  ReflTransGen fun x y => x.2.step x.1 = some y

def Caller.calling : Caller → TypeId → Thread
  | .client k, id => .client (.resolve id k)
  | .factory id' f k below, id => .factory id' f (.resolve id k) below

theorem Caller.step_calling (caller : Caller) (id : TypeId) (w : World) :
    (caller.calling id).step w = w.call id caller := by
  cases caller <;> rfl

def Outcome.prog {α : Type} : Outcome α → Prog α
  | .returned a => .ret a
  | .panicked => .panic

/-- A run of a program is a run of any thread that is running it, if its calls are. -/
theorem Prog.exec_steps {α : Type} {init : World → TypeId → World × Except Stop Resolution}
    (running : Prog α → Thread)
    (hpeek : ∀ w id k, (running (.peek id k)).step w = some (w, running (k (w.isSet id))))
    (hresolve : ∀ id k, ∃ caller : Caller, running (.resolve id k) = caller.calling id ∧
      ∀ r, caller.resume r = running (k r))
    (hinit : ∀ {w w' id r}, init w id = (w', .ok r) → ∀ caller : Caller,
      ThreadSteps (w, caller.calling id) (w', caller.resume r)) :
    ∀ {p : Prog α} {w w' : World} {o : Outcome α}, p.exec init w = (w', .ok o) →
      ThreadSteps (w, running p) (w', running o.prog) := by
  intro p
  induction p with
  | ret a => intro w w' o h; cases h; exact .refl
  | panic => intro w w' o h; cases h; exact .refl
  | peek id k ih => intro w w' o h; exact .head (hpeek w id k) (ih _ h)
  | resolve id k ih =>
    intro w w' o h
    obtain ⟨caller, hcalling, hresume⟩ := hresolve id k
    rw [Prog.exec] at h
    rcases hcall : init w id with ⟨w₁, e | r⟩
    · rw [hcall] at h; cases h
    · rw [hcall] at h
      rw [hcalling]
      exact (hresume r ▸ hinit hcall caller : ThreadSteps _ (w₁, running (k r))).trans (ih r h)

theorem World.getOrInit_steps {depth : Nat} {w w' : World} {id : TypeId} {r : Resolution}
    (hcall : World.getOrInit depth w id = (w', .ok r)) (caller : Caller) :
    ThreadSteps (w, caller.calling id) (w', caller.resume r) := by
  induction depth generalizing w w' id r caller with
  | zero => cases hcall
  | succ depth ih =>
    have hstep := caller.step_calling id w
    rw [World.getOrInit] at hcall
    -- the factory runs by the same steps, with the caller waiting below it
    have hfactory : ∀ {f w₁ o}, w.slot id = some .empty → w.container.factories.get id = some f →
        (f w.now).exec (World.getOrInit depth) (w.enter id) = (w₁, .ok o) →
        ThreadSteps (w, caller.calling id) (w₁, .factory id f o.prog caller) := by
      intro f w₁ o hs hf ho
      refine .head (b := (w.enter id, .factory id f (f w.now) caller)) ?_ ?_
      · show (caller.calling id).step w = _
        rw [hstep, World.call, hs]
        simp only [hf]
      · exact Prog.exec_steps (fun p => .factory id f p caller) (fun _ _ _ => rfl)
          (fun id' k => ⟨.factory id f k caller, rfl, fun _ => rfl⟩) (fun h c => ih h c) ho
    rcases World.initWith_cases (World.getOrInit depth) w id with
      ⟨hs, h⟩ | ⟨a, hs, h⟩ | ⟨-, h⟩ | ⟨hs, hf, h⟩ |
        ⟨f, w₁, hs, hf, ⟨e, -, h⟩ | ⟨a, ha, h⟩ | ⟨hp, h⟩⟩
    all_goals rw [h] at hcall; cases hcall
    · exact .single (by rw [hstep, World.call, hs])
    · exact .single (by rw [hstep, World.call, hs])
    · refine .single ?_
      show (caller.calling id).step w = _
      rw [hstep, World.call, hs]
      simp only [hf]
    · exact (hfactory hs hf ha).tail rfl
    · exact (hfactory hs hf hp).tail rfl

namespace Machine

variable {ι : Type} [DecidableEq ι]

/-- **The evaluator is the machine with one thread scheduled**: where `run` comes to an end, the
thread gets there, to the same slots and the same history. -/
theorem run_steps {w w' : World} {p : Prog Unit} {o : Outcome Unit} (h : w.run p = (w', .ok o))
    (threads : ι → Thread) (i : ι) (hi : threads i = .client p) :
    Steps ⟨w, threads⟩ ⟨w', Function.update threads i (.client o.prog)⟩ := by
  have hthread : ThreadSteps (w, .client p) (w', .client o.prog) :=
    Prog.exec_steps .client (fun _ _ _ => rfl)
      (fun id k => ⟨.client k, rfl, fun _ => rfl⟩) (fun h c => World.getOrInit_steps h c) h
  have hlift : ∀ {x y : World × Thread}, ThreadSteps x y →
      Steps ⟨x.1, Function.update threads i x.2⟩ ⟨y.1, Function.update threads i y.2⟩ := by
    intro x y hxy
    induction hxy with
    | refl => exact .refl
    | @tail y z _ hyz ih =>
      refine ih.tail ?_
      have hi' : Function.update threads i y.2 i = y.2 := Function.update_self ..
      have : Step ⟨y.1, Function.update threads i y.2⟩
          ⟨z.1, Function.update (Function.update threads i y.2) i z.2⟩ :=
        .thread i (by show Thread.step y.1 (Function.update threads i y.2 i) = _; rw [hi', hyz])
      rwa [Function.update_idem] at this
  have := hlift hthread
  rwa [← hi, Function.update_eq_self] at this

end Machine

end Di
end StanoPlatform
