import StanoPlatform.Di.Types

/-!
# `Di/Prog.lean` — code that talks to a container

A factory is a `fn(&Container) -> Arc<T>`: arbitrary Rust that may look components up, catch
what panics, and then return or panic itself. `Prog α` is such code with everything but its
dealings with the container abstracted away: a tree whose nodes are the two things a shared
reference lets it do to a slot — ask whether it is set, and run `get_or_init` on it — and whose
branches are what it does with each answer. A tree is finite along every branch, so the code it
stands for does not loop on its own; what may never come back is `get_or_init`.

The same trees are the clients: `try_get`, `get`, `get_trait` and `validate` are programs
(`Di/Container.lean`), and so is any sequence of them.

What a factory does apart from the container (it may read files or draw random numbers) is in the
answers it may branch on, and in when it is called. Code that gets at the container in another way,
through a global or an `Arc` of it in a closure, talks to it by the same methods.
-/

set_option autoImplicit false

namespace StanoPlatform
namespace Di

/-- What `singletons.get(&id)` followed by `get_or_init` comes to, as seen by the code that ran
it: no such key, a panic unwinding out of the factory, or the instance. -/
inductive Resolution where
  | unregistered
  | panicked
  | ready (a : AnyArc)

def Resolution.isReady : Resolution → Bool
  | .ready _ => true
  | .unregistered | .panicked => false

/-- Code running against a container. -/
inductive Prog (α : Type) : Type where
  | ret (a : α)
  | panic
  -- `singleton.get().is_some()`
  | peek (id : TypeId) (k : Bool → Prog α)
  -- look the slot up and `get_or_init` it with its factory
  | resolve (id : TypeId) (k : Resolution → Prog α)

namespace Prog

variable {α β : Type}

def bind : Prog α → (α → Prog β) → Prog β
  | .ret a, f => f a
  | .panic, _ => .panic
  | .peek id k, f => .peek id fun b => (k b).bind f
  | .resolve id k, f => .resolve id fun r => (k r).bind f

instance : Monad Prog where
  pure := .ret
  bind := bind

@[simp] theorem peek_bind (id : TypeId) (k : Bool → Prog α) (f : α → Prog β) :
    (Prog.peek id k >>= f) = .peek id fun b => k b >>= f := rfl

@[simp] theorem resolve_bind (id : TypeId) (k : Resolution → Prog α) (f : α → Prog β) :
    (Prog.resolve id k >>= f) = .resolve id fun r => k r >>= f := rfl

theorem bind_assoc {γ : Type} (p : Prog α) (f : α → Prog β) (g : β → Prog γ) :
    (p >>= f) >>= g = p >>= fun a => f a >>= g := by
  induction p with
  | ret a => rfl
  | panic => rfl
  | peek id k ih => simp only [peek_bind, ih]
  | resolve id k ih => simp only [resolve_bind, ih]

/-- On some branch the program runs `get_or_init` on `id`. -/
def Resolves : Prog α → TypeId → Prop
  | .ret _, _ => False
  | .panic, _ => False
  | .peek _ k, id => ∃ b, (k b).Resolves id
  | .resolve id' k, id => id = id' ∨ ∃ r, (k r).Resolves id

def Returns : Prog α → α → Prop
  | .ret b, a => a = b
  | .panic, _ => False
  | .peek _ k, a => ∃ b, (k b).Returns a
  | .resolve _ k, a => ∃ r, (k r).Returns a

/-- The program in a container that answers every lookup with `answer`: the keys it looks up, in
order, and what it returns unless it panics. -/
def lookups (answer : TypeId → Resolution) : Prog α → List TypeId × Option α
  | .ret a => ([], some a)
  | .panic => ([], none)
  | .peek id k => (k (answer id).isReady).lookups answer
  | .resolve id k =>
    let rest := (k (answer id)).lookups answer
    (id :: rest.1, rest.2)

theorem lookups_bind (answer : TypeId → Resolution) (f : α → Prog β) (p : Prog α) :
    (p >>= f).lookups answer = match p.lookups answer with
      | (ids, none) => (ids, none)
      | (ids, some a) => (ids ++ ((f a).lookups answer).1, ((f a).lookups answer).2) := by
  induction p with
  | ret a => rfl
  | panic => rfl
  | peek id k ih => exact ih _
  | resolve id k ih =>
    rw [resolve_bind, lookups, lookups, ih]
    obtain ⟨ids, _ | a⟩ := (k (answer id)).lookups answer <;> rfl

theorem resolves_bind {f : α → Prog β} {id : TypeId} : ∀ {p : Prog α},
    (p >>= f).Resolves id → p.Resolves id ∨ ∃ a, p.Returns a ∧ (f a).Resolves id := by
  intro p
  induction p with
  | ret a => intro h; exact .inr ⟨a, rfl, h⟩
  | panic => intro h; exact h.elim
  | peek id' k ih =>
    rintro ⟨b, hb⟩
    rcases ih b hb with h | ⟨a, ha, h⟩
    · exact .inl ⟨b, h⟩
    · exact .inr ⟨a, ⟨b, ha⟩, h⟩
  | resolve id' k ih =>
    rintro (rfl | ⟨r, hr⟩)
    · exact .inl (.inl rfl)
    · rcases ih r hr with h | ⟨a, ha, h⟩
      · exact .inl (.inr ⟨r, h⟩)
      · exact .inr ⟨a, ⟨r, ha⟩, h⟩

theorem returns_bind {f : α → Prog β} {b : β} : ∀ {p : Prog α},
    (p >>= f).Returns b → ∃ a, p.Returns a ∧ (f a).Returns b := by
  intro p
  induction p with
  | ret a => intro h; exact ⟨a, rfl, h⟩
  | panic => intro h; exact h.elim
  | peek id' k ih =>
    rintro ⟨c, hc⟩
    obtain ⟨a, ha, h⟩ := ih c hc
    exact ⟨a, ⟨c, ha⟩, h⟩
  | resolve id' k ih =>
    rintro ⟨r, hr⟩
    obtain ⟨a, ha, h⟩ := ih r hr
    exact ⟨a, ⟨r, ha⟩, h⟩

end Prog

/-- A factory as the container stores it, `Box<dyn Fn(&Container) -> Arc<dyn Any>>`. What it
does may depend on state outside the container (a counter, a file, a clock), hence on when it is
entered: a factory is the program it runs at each point of the history. -/
abbrev Factory : Type := Nat → Prog AnyArc

end Di
end StanoPlatform
