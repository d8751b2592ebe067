import StanoPlatform.Lib.Linearizable
import StanoPlatform.Lib.Run

/-!
# `Lib/Clients.lean` — tasks that ask a shared object

Every call is a task of its own; the tasks interleave wherever they wait for the object. A task may
be told that its question has failed while nobody knows what has become of it, its time may be up,
or its client may go: then the question stays under way, and takes effect later or never.

A task that asks at most once takes effect when its question does. So where each such effect is
legal for its call, every history is linearizable, as far as calls are settled (`linearizable`). A
task that asks nothing is nothing to the others (`run_restrict`).

The proof is one invariant over runs, `ClientsOk`. It has a row of the calls that have taken effect,
and says of each call where it is with regard to that row (`PhaseOk`): not begun, begun and not in
the row, in it, or answered while its question is under way. A question that lands puts its call at
the end of the row, whether or not the client is still there.
-/

set_option autoImplicit false

namespace StanoPlatform
namespace Lib

/-- Code that asks a shared object and goes on with the answers. -/
inductive Task (Op : Type) (Ans : Op → Type) (ρ : Type) : Type where
  | done (r : ρ)
  | call (op : Op) (k : Ans op → Task Op Ans ρ)

namespace Task

variable {Op : Type} {Ans : Op → Type} {α β : Type}

def bind : Task Op Ans α → (α → Task Op Ans β) → Task Op Ans β
  | .done a, f => f a
  | .call op k, f => .call op fun ans => (k ans).bind f

instance : Monad (Task Op Ans) where
  pure := .done
  bind := bind

theorem bind_assoc {γ : Type} (t : Task Op Ans α) (f : α → Task Op Ans β)
    (g : β → Task Op Ans γ) : (t >>= f) >>= g = t >>= fun a => f a >>= g := by
  induction t with
  | done a => rfl
  | call op k ih => exact congrArg (Task.call op) (funext fun ans => ih ans)

@[simp] theorem call_bind (op : Op) (k : Ans op → Task Op Ans α) (f : α → Task Op Ans β) :
    (Task.call op k >>= f) = .call op fun ans => k ans >>= f := rfl

/-- What it waits for. -/
def asks : Task Op Ans α → List Op
  | .done _ => []
  | .call op _ => [op]

end Task

/-! ## The machine -/

variable {ι Call ρ S σ χ φ Op : Type} {Ans : Op → Type}

/-- What tasks have to do with. -/
structure Setting (σ Op : Type) (Ans : Op → Type) (ρ χ φ : Type) where
  -- what the object they share becomes and what it answers, with this luck, if it can
  perform : σ → (op : Op) → χ → Option (σ × Ans op)
  -- what a task is told of a question that it will not hear of any more
  lost : φ → (op : Op) → Ans op
  -- what a call is answered whose time is up
  timedOut : ρ

/-- Where a call is. -/
inductive Phase (Op : Type) (Ans : Op → Type) (ρ : Type) where
  | absent
  -- and whether it has asked already
  | running (asked : Bool) (task : Task Op Ans ρ)
  | ended

structure Clients (σ ι Call ρ Op : Type) (Ans : Op → Type) where
  shared : σ
  phase : ι → Phase Op Ans ρ
  -- the questions of a call that it does not wait for any more
  underway : ι → List Op
  history : List (Observed ι Call ρ)

namespace Clients

def start (shared : σ) : Clients σ ι Call ρ Op Ans :=
  { shared, phase := fun _ => .absent, underway := fun _ => [], history := [] }

end Clients

inductive ClientEvent (ι Call Op χ φ : Type) where
  | arrives (id : ι) (call : Call)
  -- the object answers the call's question
  | performs (id : ι) (luck : χ)
  | fails (id : ι) (reason : φ)
  | answers (id : ι)
  | timesOut (id : ι)
  | leaves (id : ι)
  -- the object answers a question, and nobody hears it
  | lands (id : ι) (op : Op) (luck : χ)

def Observed.id : Observed ι Call ρ → ι
  | .invoked id _ | .responded id _ => id

def ClientEvent.id : ClientEvent ι Call Op χ φ → ι
  | .arrives id _ | .performs id _ | .fails id _ | .answers id | .timesOut id | .leaves id
  | .lands id _ _ => id

section

variable [DecidableEq ι] [DecidableEq Op] (task : Call → Task Op Ans ρ)
  (setting : Setting σ Op Ans ρ χ φ)

def ClientEvent.step (m : Clients σ ι Call ρ Op Ans) :
    ClientEvent ι Call Op χ φ → Option (Clients σ ι Call ρ Op Ans)
  | .arrives id call =>
    match m.phase id with
    | .absent =>
      some { m with phase := Function.update m.phase id (.running false (task call))
                    history := m.history ++ [.invoked id call] }
    | _ => none
  | .performs id luck =>
    match m.phase id with
    | .running _ (.call op k) => do
      let (shared, ans) ← setting.perform m.shared op luck
      return { m with shared, phase := Function.update m.phase id (.running true (k ans)) }
    | _ => none
  | .fails id reason =>
    match m.phase id with
    | .running _ (.call op k) =>
      some { m with
        phase := Function.update m.phase id (.running true (k (setting.lost reason op)))
        underway := Function.update m.underway id (op :: m.underway id) }
    | _ => none
  | .answers id =>
    match m.phase id with
    | .running _ (.done r) =>
      some { m with phase := Function.update m.phase id .ended
                    history := m.history ++ [.responded id r] }
    | _ => none
  | .timesOut id =>
    match m.phase id with
    | .running asked task =>
      -- a call that has nothing to wait for is in time
      if asked ∨ task.asks ≠ [] then
        some { m with phase := Function.update m.phase id .ended
                      underway := Function.update m.underway id (task.asks ++ m.underway id)
                      history := m.history ++ [.responded id setting.timedOut] }
      else none
    | _ => none
  | .leaves id =>
    match m.phase id with
    | .running _ task =>
      some { m with phase := Function.update m.phase id .ended
                    underway := Function.update m.underway id (task.asks ++ m.underway id) }
    | _ => none
  | .lands id op luck =>
    if op ∈ m.underway id then do
      let (shared, _) ← setting.perform m.shared op luck
      return { m with shared, underway := Function.update m.underway id ((m.underway id).erase op) }
    else none

/-- **What one event does.** -/
inductive Stepped (m : Clients σ ι Call ρ Op Ans) :
    ClientEvent ι Call Op χ φ → Clients σ ι Call ρ Op Ans → Prop
  | arrives (id : ι) (call : Call) (hphase : m.phase id = .absent) :
    Stepped m (.arrives id call)
      ⟨m.shared, Function.update m.phase id (.running false (task call)), m.underway,
        m.history ++ [.invoked id call]⟩
  | performs (id : ι) (luck : χ) {asked : Bool} {op : Op} {k : Ans op → Task Op Ans ρ} {shared : σ}
    {ans : Ans op} (hphase : m.phase id = .running asked (.call op k))
    (hperform : setting.perform m.shared op luck = some (shared, ans)) :
    Stepped m (.performs id luck)
      ⟨shared, Function.update m.phase id (.running true (k ans)), m.underway, m.history⟩
  | fails (id : ι) (reason : φ) {asked : Bool} {op : Op} {k : Ans op → Task Op Ans ρ}
    (hphase : m.phase id = .running asked (.call op k)) :
    Stepped m (.fails id reason)
      ⟨m.shared, Function.update m.phase id (.running true (k (setting.lost reason op))),
        Function.update m.underway id (op :: m.underway id), m.history⟩
  | answers (id : ι) {asked : Bool} {r : ρ} (hphase : m.phase id = .running asked (.done r)) :
    Stepped m (.answers id)
      ⟨m.shared, Function.update m.phase id .ended, m.underway, m.history ++ [.responded id r]⟩
  | timesOut (id : ι) {asked : Bool} {t : Task Op Ans ρ} (hphase : m.phase id = .running asked t)
    (hwaits : asked = true ∨ t.asks ≠ []) :
    Stepped m (.timesOut id)
      ⟨m.shared, Function.update m.phase id .ended,
        Function.update m.underway id (t.asks ++ m.underway id),
        m.history ++ [.responded id setting.timedOut]⟩
  | leaves (id : ι) {asked : Bool} {t : Task Op Ans ρ} (hphase : m.phase id = .running asked t) :
    Stepped m (.leaves id)
      ⟨m.shared, Function.update m.phase id .ended,
        Function.update m.underway id (t.asks ++ m.underway id), m.history⟩
  | lands (id : ι) (op : Op) (luck : χ) {shared : σ} {ans : Ans op} (hop : op ∈ m.underway id)
    (hperform : setting.perform m.shared op luck = some (shared, ans)) :
    Stepped m (.lands id op luck)
      ⟨shared, m.phase, Function.update m.underway id ((m.underway id).erase op), m.history⟩

end

section

variable [DecidableEq ι] [DecidableEq Op] {task : Call → Task Op Ans ρ}
  {setting : Setting σ Op Ans ρ χ φ} {m m' : Clients σ ι Call ρ Op Ans}
  {event : ClientEvent ι Call Op χ φ}

/-- An event is only possible in one kind of phase. -/
theorem ClientEvent.stepped (h : event.step task setting m = some m') :
    Stepped task setting m event m' := by
  cases event with
  | arrives id call =>
    cases hphase : m.phase id <;> simp only [step, hphase, reduceCtorEq] at h
    cases h
    exact .arrives id call hphase
  | performs id luck =>
    cases hphase : m.phase id with
    | absent | ended => simp [step, hphase] at h
    | running asked t =>
      cases t with
      | done r => simp [step, hphase] at h
      | call op k =>
        simp only [step, hphase] at h
        obtain ⟨⟨shared, ans⟩, hperform, h⟩ := Option.bind_eq_some_iff.mp h
        cases h
        exact .performs id luck hphase hperform
  | fails id reason =>
    cases hphase : m.phase id with
    | absent | ended => simp [step, hphase] at h
    | running asked t =>
      cases t with
      | done r => simp [step, hphase] at h
      | call op k =>
        simp only [step, hphase, Option.some.injEq] at h
        subst h
        exact .fails id reason hphase
  | answers id =>
    cases hphase : m.phase id with
    | absent | ended => simp [step, hphase] at h
    | running asked t =>
      cases t with
      | call op k => simp [step, hphase] at h
      | done r =>
        simp only [step, hphase, Option.some.injEq] at h
        subst h
        exact .answers id hphase
  | timesOut id =>
    cases hphase : m.phase id with
    | absent | ended => simp [step, hphase] at h
    | running asked t =>
      simp only [step, hphase] at h
      split at h <;> cases h
      rename_i hwaits
      exact .timesOut id hphase hwaits
  | leaves id =>
    cases hphase : m.phase id with
    | absent | ended => simp [step, hphase] at h
    | running asked t =>
      simp only [step, hphase, Option.some.injEq] at h
      subst h
      exact .leaves id hphase
  | lands id op luck =>
    simp only [step] at h
    split at h
    · rename_i hop
      obtain ⟨⟨shared, ans⟩, hperform, h⟩ := Option.bind_eq_some_iff.mp h
      cases h
      exact .lands id op luck hop hperform
    · cases h

theorem Stepped.step (h : Stepped task setting m event m') :
    event.step task setting m = some m' := by
  cases h with
  | arrives id call hphase => simp only [ClientEvent.step, hphase]
  | performs id luck hphase hperform =>
    simp only [ClientEvent.step, hphase, hperform]
    rfl
  | fails id reason hphase => simp only [ClientEvent.step, hphase]
  | answers id hphase => simp only [ClientEvent.step, hphase]
  | timesOut id hphase hwaits => simp only [ClientEvent.step, hphase, if_pos hwaits]
  | leaves id hphase => simp only [ClientEvent.step, hphase]
  | lands id op luck hop hperform =>
    simp only [ClientEvent.step, if_pos hop, hperform]
    rfl

/-- With a call nothing has happened. -/
structure Clients.SameAt (m m' : Clients σ ι Call ρ Op Ans) (id : ι) : Prop where
  phase : m'.phase id = m.phase id
  underway : m'.underway id = m.underway id
  seen : ∀ o : Observed ι Call ρ, o.id = id → (o ∈ m'.history ↔ o ∈ m.history)

theorem mem_concat_of_ne {α : Type} {x y : α} {l : List α} (h : x ≠ y) : x ∈ l ++ [y] ↔ x ∈ l := by
  simp [h]

/-- **An event is about one call**, and leaves the others as they are. -/
theorem Stepped.sameAt (h : Stepped task setting m event m') {j : ι} (hj : j ≠ event.id) :
    m.SameAt m' j := by
  have hseen : ∀ o o' : Observed ι Call ρ, o'.id = event.id → o.id = j →
      (o ∈ m.history ++ [o'] ↔ o ∈ m.history) := by
    intro o o' ho' ho
    refine mem_concat_of_ne fun heq => hj ?_
    rw [← ho, ← ho', heq]
  cases h with
  | arrives | answers => exact ⟨Function.update_of_ne hj _ _, rfl, fun o => hseen o _ rfl⟩
  | performs => exact ⟨Function.update_of_ne hj _ _, rfl, fun _ _ => Iff.rfl⟩
  | fails | leaves =>
    exact ⟨Function.update_of_ne hj _ _, Function.update_of_ne hj _ _, fun _ _ => Iff.rfl⟩
  | timesOut =>
    exact ⟨Function.update_of_ne hj _ _, Function.update_of_ne hj _ _, fun o => hseen o _ rfl⟩
  | lands => exact ⟨rfl, Function.update_of_ne hj _ _, fun _ _ => Iff.rfl⟩

end

/-! ## Tasks that ask at most once -/

/-- The task of a call asks at most once. What the object then does is legal for the call, or else
nothing, and the call is not settled; nor is it by the loss of its question or by the time. -/
inductive AtMostOnce (settles : Call → ρ → Prop) (spec : S → Call → ρ → S → Prop) (abs : σ → S)
    (setting : Setting σ Op Ans ρ χ φ) (call : Call) : Task Op Ans ρ → Prop
  | done (r : ρ) (legal : ∀ s, spec s call r s) : AtMostOnce settles spec abs setting call (.done r)
  | call (op : Op) (k : Ans op → Task Op Ans ρ)
    (performed : ∀ s s' ans luck, setting.perform s op luck = some (s', ans) →
      ∃ r, k ans = .done r ∧ (spec (abs s) call r (abs s') ∨ abs s' = abs s ∧ ¬ settles call r))
    (lost : ∀ reason, ∃ r, k (setting.lost reason op) = .done r ∧ ¬ settles call r)
    (timedOut : ¬ settles call setting.timedOut) :
    AtMostOnce settles spec abs setting call (.call op k)

section

variable {settles : Call → ρ → Prop} {spec : S → Call → ρ → S → Prop} {init : S} {abs : σ → S}
  {setting : Setting σ Op Ans ρ χ φ} {task : Call → Task Op Ans ρ}
  {m m' : Clients σ ι Call ρ Op Ans} {history history' : List (Observed ι Call ρ)}
  {served served' : List (Served ι Call ρ)} {id : ι}

/-! ### The invariant -/

/-- What may still take effect for a call that does not wait for it: its only question. -/
inductive UnderwayOk (settles : Call → ρ → Prop) (task : Call → Task Op Ans ρ)
    (history : List (Observed ι Call ρ)) (served : List (Served ι Call ρ)) (id : ι) :
    List Op → Prop
  | none : UnderwayOk settles task history served id []
  | one (call : Call) (op : Op) (k : Ans op → Task Op Ans ρ) (htask : task call = .call op k)
    (hinvoked : .invoked id call ∈ history)
    (hopen : ∀ r, .responded id r ∈ history → ¬ settles call r)
    (hserved : ∀ d ∈ served, d.id ≠ id) : UnderwayOk settles task history served id [op]

/-- What the phase of a call says of the history and of the row so far. -/
inductive PhaseOk (settles : Call → ρ → Prop) (setting : Setting σ Op Ans ρ χ φ)
    (task : Call → Task Op Ans ρ) (history : List (Observed ι Call ρ))
    (served : List (Served ι Call ρ)) (id : ι) : Phase Op Ans ρ → List Op → Prop
  | absent (hinvoked : ∀ call, .invoked id call ∉ history)
    (hresponded : ∀ r, .responded id r ∉ history) :
    PhaseOk settles setting task history served id .absent []
  | before (call : Call) (hinvoked : .invoked id call ∈ history)
    (hresponded : ∀ r, .responded id r ∉ history) (hserved : ∀ d ∈ served, d.id ≠ id) :
    PhaseOk settles setting task history served id (.running false (task call)) []
  | after (call : Call) (r : ρ) (hinvoked : .invoked id call ∈ history)
    (hserved : ⟨id, call, r⟩ ∈ served) (htimedOut : ¬ settles call setting.timedOut) :
    PhaseOk settles setting task history served id (.running true (.done r)) []
  -- it has an answer that does not settle it
  | failed (call : Call) (r : ρ) {ops : List Op} (hinvoked : .invoked id call ∈ history)
    (hsettles : ¬ settles call r) (htimedOut : ¬ settles call setting.timedOut)
    (hunderway : UnderwayOk settles task history served id ops) :
    PhaseOk settles setting task history served id (.running true (.done r)) ops
  | ended {ops : List Op} (hunderway : UnderwayOk settles task history served id ops) :
    PhaseOk settles setting task history served id .ended ops

section

variable (hseen : ∀ o : Observed ι Call ρ, o.id = id → (o ∈ history' ↔ o ∈ history))
  (hserved : ∀ d : Served ι Call ρ, d.id = id → (d ∈ served' ↔ d ∈ served))

include hseen hserved

theorem UnderwayOk.frame {ops : List Op} (h : UnderwayOk settles task history served id ops) :
    UnderwayOk settles task history' served' id ops := by
  cases h with
  | none => exact .none
  | one call op k htask hinvoked hopen hnew =>
    exact .one call op k htask ((hseen _ rfl).mpr hinvoked)
      (fun r hr => hopen r ((hseen _ rfl).mp hr)) fun d hd hid => hnew d ((hserved d hid).mp hd) hid

/-- What is done about one call leaves the phases of the others as they are. -/
theorem PhaseOk.frame {phase : Phase Op Ans ρ} {ops : List Op}
    (h : PhaseOk settles setting task history served id phase ops) :
    PhaseOk settles setting task history' served' id phase ops := by
  cases h with
  | absent hinvoked hresponded =>
    exact .absent (fun call hcall => hinvoked call ((hseen _ rfl).mp hcall))
      fun r hr => hresponded r ((hseen _ rfl).mp hr)
  | before call hinvoked hresponded hnew =>
    exact .before call ((hseen _ rfl).mpr hinvoked)
      (fun r hr => hresponded r ((hseen _ rfl).mp hr))
      fun d hd hid => hnew d ((hserved d hid).mp hd) hid
  | after call r hinvoked hrow htimedOut =>
    exact .after call r ((hseen _ rfl).mpr hinvoked) ((hserved _ rfl).mpr hrow) htimedOut
  | failed call r hinvoked hsettles htimedOut hunderway =>
    exact .failed call r ((hseen _ rfl).mpr hinvoked) hsettles htimedOut
      (hunderway.frame hseen hserved)
  | ended hunderway => exact .ended (hunderway.frame hseen hserved)

end

/-- The row so far explains the history so far, and the phases fit both. -/
structure ClientsOk (settles : Call → ρ → Prop) (setting : Setting σ Op Ans ρ χ φ)
    (task : Call → Task Op Ans ρ) (spec : S → Call → ρ → S → Prop) (init : S) (abs : σ → S)
    (m : Clients σ ι Call ρ Op Ans) (served : List (Served ι Call ρ)) : Prop extends
    Linearization settles spec init m.history served (abs m.shared) where
  phase : ∀ id, PhaseOk settles setting task m.history served id (m.phase id) (m.underway id)

theorem ClientsOk.start (shared : σ) :
    ClientsOk settles setting task spec (abs shared) abs
      (Clients.start shared : Clients σ ι Call ρ Op Ans) [] where
  legal := rfl
  once := List.nodup_nil
  named := nofun
  invoked := nofun
  responded := nofun
  realTime := nofun
  phase _ := .absent nofun nofun

/-- The question of a call is answered. Either the call takes effect, or nothing does and the call
is not settled. -/
theorem Linearization.effect {call : Call} {op : Op} {k : Ans op → Task Op Ans ρ} {s s' : σ}
    {ans : Ans op} {luck : χ} (h : Linearization settles spec init history served (abs s))
    (htask : AtMostOnce settles spec abs setting call (.call op k))
    (hinvoked : .invoked id call ∈ history)
    (hopen : ∀ r, .responded id r ∈ history → ¬ settles call r)
    (hserved : ∀ d ∈ served, d.id ≠ id) (hperform : setting.perform s op luck = some (s', ans)) :
    ∃ r, k ans = .done r ∧
      (Linearization settles spec init history (served ++ [⟨id, call, r⟩]) (abs s') ∨
        Linearization settles spec init history served (abs s') ∧ ¬ settles call r) := by
  cases htask with
  | call op k hperformed =>
    obtain ⟨r, hr, hspec | ⟨hsame, hsettles⟩⟩ := hperformed _ _ _ _ hperform
    · exact ⟨r, hr, .inl (h.snoc hserved hinvoked hopen hspec)⟩
    · exact ⟨r, hr, .inr ⟨hsame ▸ h, hsettles⟩⟩

/-- What a call asks that is given up stays under way. -/
theorem PhaseOk.given_up {asked : Bool} {t : Task Op Ans ρ} {ops : List Op}
    (h : PhaseOk settles setting task history served id (.running asked t) ops) :
    UnderwayOk settles task history served id (t.asks ++ ops) := by
  generalize hphase : Phase.running asked t = phase at h
  cases h with
  | absent | ended => cases hphase
  | before call hinvoked hresponded hserved =>
    cases hphase
    rw [List.append_nil]
    cases hcall : task call with
    | done r => exact .none
    | call op k =>
      exact .one call op k hcall hinvoked (fun r hr => absurd hr (hresponded r)) hserved
  | after call r _ _ _ =>
    cases hphase
    exact .none
  | failed call r _ _ _ hunderway =>
    cases hphase
    exact hunderway

/-- Whose time can be up has asked, and the time does not settle it. -/
theorem PhaseOk.timedOut (htask : ∀ call, AtMostOnce settles spec abs setting call (task call))
    {asked : Bool} {t : Task Op Ans ρ} {ops : List Op}
    (h : PhaseOk settles setting task history served id (.running asked t) ops)
    (hwaits : asked = true ∨ t.asks ≠ []) :
    ∃ call, .invoked id call ∈ history ∧ ¬ settles call setting.timedOut := by
  generalize hphase : Phase.running asked t = phase at h
  cases h with
  | absent | ended => cases hphase
  | before call hinvoked _ _ =>
    cases hphase
    rcases hwaits with hasked | hasks
    · cases hasked
    · have honce := htask call
      generalize task call = t at honce hasks
      cases honce with
      | done r _ => exact absurd rfl hasks
      | call _ _ _ _ htimedOut => exact ⟨call, hinvoked, htimedOut⟩
  | after call _ hinvoked _ htimedOut | failed call _ hinvoked _ htimedOut _ =>
    exact ⟨call, hinvoked, htimedOut⟩

theorem PhaseOk.underway {phase : Phase Op Ans ρ} {ops : List Op}
    (h : PhaseOk settles setting task history served id phase ops) :
    UnderwayOk settles task history served id ops := by
  cases h with
  | absent | before | after => exact .none
  | failed _ _ _ _ _ hunderway | ended hunderway => exact hunderway

/-- What was under way has landed. -/
theorem PhaseOk.landed {phase : Phase Op Ans ρ} {op : Op}
    (h : PhaseOk settles setting task history served id phase [op]) :
    PhaseOk settles setting task history served' id phase [] := by
  cases h with
  | failed call r hinvoked hsettles htimedOut _ =>
    exact .failed call r hinvoked hsettles htimedOut .none
  | ended _ => exact .ended .none

/-- A response that does not settle a call changes nothing about what is under way for it. -/
theorem UnderwayOk.respond {call : Call} {r : ρ} {ops : List Op}
    (h : UnderwayOk settles task history served id ops)
    (hnamed : ∀ call', .invoked id call' ∈ history → call' = call) (hsettles : ¬ settles call r) :
    UnderwayOk settles task (history ++ [.responded id r]) served id ops := by
  cases h with
  | none => exact .none
  | one call' op k htask hinvoked hopen hserved =>
    refine .one call' op k htask (List.mem_append_left _ hinvoked) (fun r' hr' => ?_) hserved
    rcases List.mem_append.mp hr' with hr' | hr'
    · exact hopen r' hr'
    · cases List.mem_singleton.mp hr'
      rwa [hnamed call' hinvoked]

/-- Who waits for the object has not asked it before, and is not in the row. -/
theorem PhaseOk.asking (htask : ∀ call, AtMostOnce settles spec abs setting call (task call))
    {asked : Bool} {op : Op} {k : Ans op → Task Op Ans ρ} {ops : List Op}
    (h : PhaseOk settles setting task history served id (.running asked (.call op k)) ops) :
    ∃ call, .invoked id call ∈ history ∧ (∀ r, .responded id r ∉ history) ∧
      (∀ d ∈ served, d.id ≠ id) ∧ ops = [] ∧
      AtMostOnce settles spec abs setting call (.call op k) := by
  generalize hphase : Phase.running asked (Task.call op k) = phase at h
  cases h with
  | absent | ended | after | failed => cases hphase
  | before call hinvoked hresponded hserved =>
    obtain ⟨-, hcall⟩ := Phase.running.inj hphase
    exact ⟨call, hinvoked, hresponded, hserved, rfl, hcall ▸ htask call⟩

/-- The row goes on, by calls with this id only, and fits what has become of the one call. -/
structure GoesOn (settles : Call → ρ → Prop) (setting : Setting σ Op Ans ρ χ φ)
    (task : Call → Task Op Ans ρ) (spec : S → Call → ρ → S → Prop) (init : S) (abs : σ → S)
    (m : Clients σ ι Call ρ Op Ans) (served more : List (Served ι Call ρ)) (id : ι) : Prop where
  own : ∀ d ∈ more, d.id = id
  linearization : Linearization settles spec init m.history (served ++ more) (abs m.shared)
  phase : PhaseOk settles setting task m.history (served ++ more) id (m.phase id) (m.underway id)

section

variable {phase : Phase Op Ans ρ} {ops : List Op} (hphase : m.phase id = phase)
  (hops : m.underway id = ops)

include hphase hops

/-- Nothing takes effect. -/
theorem GoesOn.nothing
    (hlinearization : Linearization settles spec init m.history served (abs m.shared))
    (hid : PhaseOk settles setting task m.history served id phase ops) :
    ∃ more, GoesOn settles setting task spec init abs m served more id := by
  refine ⟨[], nofun, ?_, ?_⟩
  · rwa [List.append_nil]
  · rwa [List.append_nil, hphase, hops]

/-- The call takes effect. -/
theorem GoesOn.effect {call : Call} {r : ρ}
    (hlinearization :
      Linearization settles spec init m.history (served ++ [⟨id, call, r⟩]) (abs m.shared))
    (hid : PhaseOk settles setting task m.history (served ++ [⟨id, call, r⟩]) id phase ops) :
    ∃ more, GoesOn settles setting task spec init abs m served more id := by
  refine ⟨[⟨id, call, r⟩], by simp, hlinearization, ?_⟩
  rwa [hphase, hops]

end

/-- **One event and its call.** The row grows by the call if it takes effect. -/
theorem ClientsOk.goesOn [DecidableEq ι] [DecidableEq Op]
    (htask : ∀ call, AtMostOnce settles spec abs setting call (task call))
    {event : ClientEvent ι Call Op χ φ}
    (h : ClientsOk settles setting task spec init abs m served)
    (hstep : Stepped task setting m event m') :
    ∃ more, GoesOn settles setting task spec init abs m' served more event.id := by
  have hid := h.phase event.id
  cases hstep with
  | arrives id call hphase =>
    rw [ClientEvent.id, hphase] at hid
    generalize hops : m.underway id = ops at hid
    cases hid with
    | absent hinvoked hresponded =>
      have hnew : ∀ d ∈ served, d.id ≠ id := fun d hd heq =>
        hinvoked d.call (heq ▸ h.invoked d hd)
      refine GoesOn.nothing (Function.update_self _ _ _) hops
        (h.toLinearization.invoke hinvoked call)
        (.before call (List.mem_concat_self ..) (fun r hr => ?_) hnew)
      rcases List.mem_append.mp hr with hr | hr
      · exact hresponded r hr
      · cases List.mem_singleton.mp hr
  | performs id luck hphase hperform =>
    rw [ClientEvent.id, hphase] at hid
    obtain ⟨call, hinvoked, hresponded, hserved, hops, honce⟩ := hid.asking htask
    obtain ⟨r, hr, heffect⟩ := h.toLinearization.effect honce hinvoked
      (fun r hr => absurd hr (hresponded r)) hserved hperform
    rw [hr]
    cases honce with
    | call _ _ _ _ htimedOut =>
      rcases heffect with hlin | ⟨hlin, hsettles⟩
      · exact GoesOn.effect (Function.update_self _ _ _) hops hlin
          (.after call r hinvoked (by simp) htimedOut)
      · exact GoesOn.nothing (Function.update_self _ _ _) hops hlin
          (.failed call r hinvoked hsettles htimedOut .none)
  | fails id reason hphase =>
    rw [ClientEvent.id, hphase] at hid
    obtain ⟨call, hinvoked, -, -, -, honce⟩ := hid.asking htask
    cases honce with
    | call _ _ _ hlost htimedOut =>
      obtain ⟨r, hr, hsettles⟩ := hlost reason
      rw [hr]
      -- the question stays under way, and the answer does not settle the call
      exact GoesOn.nothing (Function.update_self _ _ _) (Function.update_self _ _ _)
        h.toLinearization (.failed call r hinvoked hsettles htimedOut hid.given_up)
  | @answers id asked r hphase =>
    rw [ClientEvent.id, hphase] at hid
    generalize hcall : Phase.running asked (Task.done r) = phase at hid
    generalize hops : m.underway id = ops at hid
    cases hid with
    | absent | ended => cases hcall
    | before call hinvoked hresponded hserved =>
      obtain ⟨-, hcall⟩ := Phase.running.inj hcall
      -- a call that asks nothing takes effect when it is answered
      have honce := htask call
      rw [← hcall] at honce
      cases honce with
      | done _ hlegal =>
        have hlin := h.toLinearization.snoc hserved hinvoked
          (fun r hr => absurd hr (hresponded r)) (hlegal _)
        exact GoesOn.effect (Function.update_self _ _ _) hops
          (hlin.respond hinvoked fun _ => by simp) (.ended .none)
    | after call r hinvoked hserved _ =>
      cases hcall
      exact GoesOn.nothing (Function.update_self _ _ _) hops
        (h.toLinearization.respond hinvoked fun _ => hserved) (.ended .none)
    | failed call r hinvoked hsettles _ hunderway =>
      cases hcall
      exact GoesOn.nothing (Function.update_self _ _ _) hops
        (h.toLinearization.respond hinvoked fun hsettled => absurd hsettled hsettles)
        (.ended (hunderway.respond (fun call' h' => h.named _ _ _ h' hinvoked) hsettles))
  | timesOut id hphase hwaits =>
    rw [ClientEvent.id, hphase] at hid
    obtain ⟨call, hinvoked, htimedOut⟩ := hid.timedOut htask hwaits
    exact GoesOn.nothing (Function.update_self _ _ _) (Function.update_self _ _ _)
      (h.toLinearization.respond hinvoked fun hsettled => absurd hsettled htimedOut)
      (.ended (hid.given_up.respond (fun call' h' => h.named _ _ _ h' hinvoked) htimedOut))
  | leaves id hphase =>
    rw [ClientEvent.id, hphase] at hid
    exact GoesOn.nothing (Function.update_self _ _ _) (Function.update_self _ _ _) h.toLinearization
      (.ended hid.given_up)
  | lands id op luck hop hperform =>
    rw [ClientEvent.id] at hid
    have hunderway := hid.underway
    generalize hops : m.underway id = ops at hop hid hunderway
    cases hunderway with
    | none => cases hop
    | one call op' k hcall hinvoked hopen hserved =>
      cases List.mem_singleton.mp hop
      obtain ⟨r, -, heffect⟩ := h.toLinearization.effect (hcall ▸ htask call) hinvoked hopen
        hserved hperform
      have hnone : [op].erase op = [] := List.erase_cons_head op []
      rcases heffect with hlin | ⟨hlin, -⟩
      · exact GoesOn.effect rfl ((Function.update_self _ _ _).trans hnone) hlin hid.landed
      · exact GoesOn.nothing rfl ((Function.update_self _ _ _).trans hnone) hlin hid.landed

/-- **One event.** The calls that it is not about fit the longer row as they did before. -/
theorem ClientsOk.step [DecidableEq ι] [DecidableEq Op]
    (htask : ∀ call, AtMostOnce settles spec abs setting call (task call))
    {event : ClientEvent ι Call Op χ φ}
    (h : ClientsOk settles setting task spec init abs m served)
    (hstep : event.step task setting m = some m') :
    ∃ more, ClientsOk settles setting task spec init abs m' (served ++ more) := by
  have hstepped := ClientEvent.stepped hstep
  obtain ⟨more, hgoes⟩ := h.goesOn htask hstepped
  refine ⟨more, hgoes.linearization, fun id => ?_⟩
  by_cases hid : id = event.id
  · rw [hid]
    exact hgoes.phase
  · have hsame := hstepped.sameAt hid
    rw [hsame.phase, hsame.underway]
    refine (h.phase id).frame hsame.seen fun d hd => ?_
    have hmore : d ∉ more := fun hmem => hid (hd.symm.trans (hgoes.own d hmem))
    rw [List.mem_append, or_iff_left hmore]

/-- **Every history is linearizable**, where tasks ask at most once. -/
theorem linearizable [DecidableEq ι] [DecidableEq Op]
    (htask : ∀ call, AtMostOnce settles spec abs setting call (task call)) {shared : σ}
    {events : List (ClientEvent ι Call Op χ φ)}
    (hrun : run (ClientEvent.step task setting) (Clients.start shared) events = some m) :
    ∃ served, Linearization settles spec (abs shared) m.history served (abs m.shared) := by
  have hok : ∃ served, ClientsOk settles setting task spec (abs shared) abs m served := by
    refine run_invariant
      (fun _ m => ∃ served, ClientsOk settles setting task spec (abs shared) abs m served)
      ⟨[], .start shared⟩ ?_ hrun
    rintro _ t t' event ⟨served, hok⟩ hstep
    obtain ⟨more, hok'⟩ := hok.step htask hstep
    exact ⟨_, hok'⟩
  obtain ⟨served, hok⟩ := hok
  exact ⟨served, hok.toLinearization⟩

end


/-! ## Calls that ask nothing

A call that asks nothing is nothing to the others: leave it out of a run, and the run is the same
but for what is about that call. -/

/-- The calls that are kept, and nothing of the others. -/
def Clients.restrict (keep : ι → Bool) (m : Clients σ ι Call ρ Op Ans) :
    Clients σ ι Call ρ Op Ans :=
  { shared := m.shared
    phase := fun id => if keep id then m.phase id else .absent
    underway := fun id => if keep id then m.underway id else []
    history := m.history.filter fun seen => keep seen.id }

/-- The call has asked nothing, and will not. -/
structure Clients.Quiet (m : Clients σ ι Call ρ Op Ans) (id : ι) : Prop where
  phase : ∀ asked t, m.phase id = .running asked t → asked = false ∧ ∃ r, t = .done r
  underway : m.underway id = []

theorem update_kept [DecidableEq ι] {α : Type} {keep : ι → Bool} {f : ι → α} {id : ι} {x absent : α}
    (hid : keep id = true) :
    (fun j => if keep j then Function.update f id x j else absent) =
      Function.update (fun j => if keep j then f j else absent) id x := by
  funext j
  by_cases hj : j = id
  · subst hj
    simp [hid]
  · simp [hj]

section

variable [DecidableEq ι] [DecidableEq Op] {task : Call → Task Op Ans ρ}
  {setting : Setting σ Op Ans ρ χ φ} {m m' : Clients σ ι Call ρ Op Ans} {keep : ι → Bool}
  {event : ClientEvent ι Call Op χ φ}

/-- An event of a call that is kept happens without the others, too. -/
theorem step_restrict (hkeep : keep event.id = true) (h : event.step task setting m = some m') :
    event.step task setting (m.restrict keep) = some (m'.restrict keep) := by
  have hphaseOf : (m.restrict keep).phase event.id = m.phase event.id := if_pos hkeep
  have hunderwayOf : (m.restrict keep).underway event.id = m.underway event.id := if_pos hkeep
  cases ClientEvent.stepped h with
  | arrives id call hphase =>
    have hid : keep id = true := hkeep
    refine (Stepped.arrives id call (hphaseOf.trans hphase)).step.trans (congrArg some ?_)
    simp only [Clients.restrict, update_kept hid, List.filter_append, List.filter_singleton,
      Observed.id, hid]
    rfl
  | performs id luck hphase hperform =>
    have hid : keep id = true := hkeep
    refine (Stepped.performs id luck (hphaseOf.trans hphase) hperform).step.trans
      (congrArg some ?_)
    simp only [Clients.restrict, update_kept hid]
  | fails id reason hphase =>
    have hid : keep id = true := hkeep
    refine (Stepped.fails id reason (hphaseOf.trans hphase)).step.trans (congrArg some ?_)
    rw [show (m.restrict keep).underway id = m.underway id from hunderwayOf]
    simp only [Clients.restrict, update_kept hid]
  | answers id hphase =>
    have hid : keep id = true := hkeep
    refine (Stepped.answers id (hphaseOf.trans hphase)).step.trans (congrArg some ?_)
    simp only [Clients.restrict, update_kept hid, List.filter_append, List.filter_singleton,
      Observed.id, hid]
    rfl
  | timesOut id hphase hwaits =>
    have hid : keep id = true := hkeep
    refine (Stepped.timesOut id (hphaseOf.trans hphase) hwaits).step.trans (congrArg some ?_)
    rw [show (m.restrict keep).underway id = m.underway id from hunderwayOf]
    simp only [Clients.restrict, update_kept hid, List.filter_append, List.filter_singleton,
      Observed.id, hid]
    rfl
  | leaves id hphase =>
    have hid : keep id = true := hkeep
    refine (Stepped.leaves id (hphaseOf.trans hphase)).step.trans (congrArg some ?_)
    rw [show (m.restrict keep).underway id = m.underway id from hunderwayOf]
    simp only [Clients.restrict, update_kept hid]
  | lands id op luck hop hperform =>
    have hid : keep id = true := hkeep
    have hop' : op ∈ (m.restrict keep).underway id := by rwa [show
      (m.restrict keep).underway id = m.underway id from hunderwayOf]
    refine (Stepped.lands id op luck hop' hperform).step.trans (congrArg some ?_)
    rw [show (m.restrict keep).underway id = m.underway id from hunderwayOf]
    simp only [Clients.restrict, update_kept hid]

omit [DecidableEq ι] [DecidableEq Op] in
/-- What is only about a call that is left out is not seen. -/
theorem restrict_dropped {id : ι} {phase : ι → Phase Op Ans ρ} {underway : ι → List Op}
    {seen : List (Observed ι Call ρ)} (hid : keep id = false)
    (hphase : ∀ j ≠ id, phase j = m.phase j) (hunderway : ∀ j ≠ id, underway j = m.underway j)
    (hseen : ∀ o ∈ seen, o.id = id) :
    (⟨m.shared, phase, underway, m.history ++ seen⟩ : Clients σ ι Call ρ Op Ans).restrict keep =
      m.restrict keep := by
  have hkept : ∀ j, keep j = true → j ≠ id := by
    rintro j hj rfl
    exact absurd (hj.symm.trans hid) (by decide)
  have hnone : seen.filter (fun o => keep o.id) = [] :=
    List.filter_eq_nil_iff.mpr fun o ho hkeep => hkept _ hkeep (hseen o ho)
  rw [Clients.restrict, Clients.restrict, Clients.mk.injEq]
  refine ⟨rfl, funext fun j => ?_, funext fun j => ?_, ?_⟩
  · exact if_ctx_congr Iff.rfl (fun hj => hphase j (hkept j hj)) fun _ => rfl
  · exact if_ctx_congr Iff.rfl (fun hj => hunderway j (hkept j hj)) fun _ => rfl
  · rw [List.filter_append, hnone, List.append_nil]

/-- An event of a call that asks nothing changes nothing but the call. -/
theorem restrict_step (hkeep : keep event.id = false) (hquiet : m.Quiet event.id)
    (harrives : ∀ id call, event = .arrives id call → ∃ r, task call = .done r)
    (h : event.step task setting m = some m') :
    m'.restrict keep = m.restrict keep ∧ m'.Quiet event.id := by
  cases ClientEvent.stepped h with
  | arrives id call hphase =>
    obtain ⟨r, hr⟩ := harrives id call rfl
    refine ⟨restrict_dropped hkeep (fun j hj => Function.update_of_ne hj _ _) (fun _ _ => rfl)
      (by simp [Observed.id, ClientEvent.id]), fun asked t ht => ?_, hquiet.underway⟩
    cases (Function.update_self _ _ _).symm.trans ht
    exact ⟨rfl, r, hr⟩
  | performs id luck hphase hperform | fails id reason hphase =>
    obtain ⟨-, r, hr⟩ := hquiet.phase _ _ hphase
    cases hr
  | answers id hphase =>
    refine ⟨restrict_dropped hkeep (fun j hj => Function.update_of_ne hj _ _) (fun _ _ => rfl)
      (by simp [Observed.id, ClientEvent.id]), fun asked t ht => ?_, hquiet.underway⟩
    cases (Function.update_self _ _ _).symm.trans ht
  | timesOut id hphase hwaits =>
    obtain ⟨rfl, r, rfl⟩ := hquiet.phase _ _ hphase
    simp [Task.asks] at hwaits
  | leaves id hphase =>
    obtain ⟨-, r, rfl⟩ := hquiet.phase _ _ hphase
    have hrestrict : (⟨m.shared, Function.update m.phase id .ended,
        Function.update m.underway id ([] ++ m.underway id), m.history ++ []⟩ :
          Clients σ ι Call ρ Op Ans).restrict keep = m.restrict keep :=
      restrict_dropped hkeep (fun j hj => Function.update_of_ne hj _ _)
        (fun j hj => Function.update_of_ne hj _ _) fun _ h => nomatch h
    rw [List.append_nil] at hrestrict
    refine ⟨hrestrict, fun asked t ht => ?_, ?_⟩
    · cases (Function.update_self _ _ _).symm.trans ht
    · exact (Function.update_self _ _ _).trans hquiet.underway
  | lands id op luck hop hperform =>
    rw [show m.underway id = [] from hquiet.underway] at hop
    cases hop

theorem quiet_of_ne {j : ι} (hj : j ≠ event.id) (h : event.step task setting m = some m')
    (hquiet : m.Quiet j) : m'.Quiet j := by
  have hsame := (ClientEvent.stepped h).sameAt hj
  exact ⟨fun asked t ht => hquiet.phase asked t (hsame.phase.symm.trans ht),
    hsame.underway.trans hquiet.underway⟩

/-- **What asks nothing is invisible**: a run without the calls that ask nothing is a run, to the
same state of the object, and with the same of every other call. All along, those left out have
nothing under way. -/
theorem run_restrict {shared : σ} {events : List (ClientEvent ι Call Op χ φ)}
    (hkeep : ∀ id call, .arrives id call ∈ events → keep id = false → ∃ r, task call = .done r)
    (hrun : run (ClientEvent.step task setting) (Clients.start shared) events = some m) :
    run (ClientEvent.step task setting) (Clients.start shared)
      (events.filter fun event => keep event.id) = some (m.restrict keep) := by
  have hinv : (∀ id call, .arrives id call ∈ events → keep id = false → ∃ r, task call = .done r) →
      run (ClientEvent.step task setting) (Clients.start shared)
        (events.filter fun event => keep event.id) = some (m.restrict keep) ∧
      ∀ id, keep id = false → m.Quiet id := by
    refine run_invariant (fun events m =>
      (∀ id call, .arrives id call ∈ events → keep id = false → ∃ r, task call = .done r) →
      run (ClientEvent.step task setting) (Clients.start shared)
        (events.filter fun event => keep event.id) = some (m.restrict keep) ∧
      ∀ id, keep id = false → m.Quiet id) ?_ ?_ hrun
    · intro _
      refine ⟨congrArg some ?_, fun _ _ => ⟨nofun, rfl⟩⟩
      simp [Clients.restrict, Clients.start]
    · intro events t t' event ih hstep harrives
      obtain ⟨hbefore, hquiet⟩ := ih fun id call h =>
        harrives id call (List.mem_append_left _ h)
      rw [List.filter_append, List.filter_singleton]
      cases hkept : keep event.id with
      | true =>
        rw [run_append, hbefore]
        refine ⟨by simp [run, step_restrict hkept hstep], fun j hj => ?_⟩
        have hne : j ≠ event.id := by
          rintro rfl
          exact absurd (hkept.symm.trans hj) (by decide)
        exact quiet_of_ne hne hstep (hquiet j hj)
      | false =>
        obtain ⟨hsame, hstill⟩ := restrict_step hkept (hquiet _ hkept)
          (fun id call h => harrives id call (by simp [h]) (by rw [h] at hkept; exact hkept)) hstep
        refine ⟨by rw [hsame]; simpa using hbefore, fun j hj => ?_⟩
        by_cases hne : j = event.id
        · rw [hne]
          exact hstill
        · exact quiet_of_ne hne hstep (hquiet j hj)
  exact (hinv hkeep).1

/-- A call that comes down to an answer, asking nothing, has no other. -/
structure AnswersAlone (task : Call → Task Op Ans ρ) (events : List (ClientEvent ι Call Op χ φ))
    (m : Clients σ ι Call ρ Op Ans) : Prop where
  running : ∀ id asked t, m.phase id = .running asked t → ∃ call, .arrives id call ∈ events ∧
    ∀ r, task call = .done r → asked = false ∧ t = .done r
  responded : ∀ id r, .responded id r ∈ m.history → ∃ call, .arrives id call ∈ events ∧
    ∀ r', task call = .done r' → r = r'

theorem AnswersAlone.step {events : List (ClientEvent ι Call Op χ φ)}
    (ih : AnswersAlone task events m) (h : event.step task setting m = some m') :
    AnswersAlone task (events ++ [event]) m' := by
  have hmore : ∀ {id call}, .arrives id call ∈ events →
      ClientEvent.arrives id call ∈ events ++ [event] := List.mem_append_left _
  have hkeeps : ∀ {P : Call → Prop} {id}, (∃ call, .arrives id call ∈ events ∧ P call) →
      ∃ call, .arrives id call ∈ events ++ [event] ∧ P call :=
    fun ⟨call, harrives, hP⟩ => ⟨call, hmore harrives, hP⟩
  -- the phases of the other calls are as they were
  have hother : ∀ {id phase}, (∀ asked t, phase = .running asked t → ∃ call,
        .arrives id call ∈ events ++ [event] ∧
          ∀ r, task call = .done r → asked = false ∧ t = .done r) →
      ∀ j asked t, Function.update m.phase id phase j = .running asked t → ∃ call,
        .arrives j call ∈ events ++ [event] ∧
          ∀ r, task call = .done r → asked = false ∧ t = .done r := by
    intro id phase hphase j asked t hj
    by_cases hid : j = id
    · subst hid
      rw [Function.update_self] at hj
      exact hphase asked t hj
    · rw [Function.update_of_ne hid] at hj
      exact hkeeps (ih.running j asked t hj)
  -- a call that asks nothing is not in a place where it has asked
  have hasking : ∀ {id op} {k : Ans op → Task Op Ans ρ} {asked asked' : Bool} {t : Task Op Ans ρ},
      m.phase id = .running asked (.call op k) → ∃ call, .arrives id call ∈ events ++ [event] ∧
        ∀ r, task call = .done r → asked' = false ∧ t = .done r := by
    intro id op k asked asked' t hphase
    obtain ⟨call, harrives, hdone⟩ := ih.running id _ _ hphase
    exact ⟨call, hmore harrives, fun r hr => nomatch (hdone r hr).2⟩
  cases ClientEvent.stepped h with
  | arrives id call hphase =>
    refine ⟨hother fun asked t ht => ⟨call, by simp, fun r hr => ?_⟩, fun j r hj => ?_⟩
    · cases ht
      exact ⟨rfl, hr⟩
    · exact hkeeps (ih.responded j r (by simpa using hj))
  | performs id luck hphase hperform =>
    exact ⟨hother fun _ _ _ => hasking hphase, fun j r hj => hkeeps (ih.responded j r hj)⟩
  | fails id reason hphase =>
    exact ⟨hother fun _ _ _ => hasking hphase, fun j r hj => hkeeps (ih.responded j r hj)⟩
  | @answers id asked answer hphase =>
    refine ⟨hother nofun, fun j r hj => ?_⟩
    rcases List.mem_append.mp hj with hj | hj
    · exact hkeeps (ih.responded j r hj)
    · cases List.mem_singleton.mp hj
      obtain ⟨call, harrives, hdone⟩ := ih.running id _ _ hphase
      exact ⟨call, hmore harrives, fun r' hr' => by cases (hdone r' hr').2; rfl⟩
  | @timesOut id asked t hphase hwaits =>
    refine ⟨hother nofun, fun j r hj => ?_⟩
    rcases List.mem_append.mp hj with hj | hj
    · exact hkeeps (ih.responded j r hj)
    · cases List.mem_singleton.mp hj
      obtain ⟨call, harrives, hdone⟩ := ih.running id _ _ hphase
      refine ⟨call, hmore harrives, fun r' hr' => ?_⟩
      obtain ⟨rfl, rfl⟩ := hdone r' hr'
      simp [Task.asks] at hwaits
  | leaves id hphase => exact ⟨hother nofun, fun j r hj => hkeeps (ih.responded j r hj)⟩
  | lands id op luck hop hperform =>
    exact ⟨fun j asked t hj => hkeeps (ih.running j asked t hj),
      fun j r hj => hkeeps (ih.responded j r hj)⟩

/-- **What asks nothing sees nothing**: it is answered as if it were the only call. -/
theorem responded_of_run {shared : σ} {events : List (ClientEvent ι Call Op χ φ)}
    (hrun : run (ClientEvent.step task setting) (Clients.start shared) events = some m) {id : ι}
    {r : ρ} (hresponded : .responded id r ∈ m.history) :
    ∃ call, .arrives id call ∈ events ∧ ∀ r', task call = .done r' → r = r' := by
  have halone : AnswersAlone task events m := by
    refine run_invariant (AnswersAlone task) ?_ (fun _ _ _ _ => AnswersAlone.step) hrun
    exact ⟨fun _ _ _ h => (nomatch h), fun _ _ h => (nomatch h)⟩
  exact halone.responded id r hresponded

end

end Lib
end StanoPlatform
