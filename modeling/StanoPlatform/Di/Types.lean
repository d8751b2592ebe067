import StanoPlatform.Lib.HashMap

/-!
# `Di/Types.lean` — the values the container stores

`stano-di` erases types and recovers them by downcast, so the model keeps them: a `RustType` is
a type as `TypeId` sees it, an `Arc T` is a pointer to one, and an `AnyArc` — the
`Arc<dyn Any + Send + Sync>` of a slot — is a pointer **with** the type it was erased at. Two
storage conventions share that one erased type: a component registered under its own type is
stored as an `Arc<T>`, one registered under a trait as an `Arc<Arc<U>>`.

Only identity matters about an instance, so a pointer is an address. What is *not* an address is
a pointer to a `TraitObject<U>`: its only field is private and nothing builds one, so `Arc` is
empty there — which is why a filled slot under a `TraitObject` key can only have come from the
trait registration path, whatever types the public methods are called at.

From the type parameters and `Arc`s of `stano-di/src/container.rs`. Only three shapes of type are
told apart, a named one, `Arc<T>` and `TraitObject<U>`, because those are the ones a `TypeId` is
asked of. `downcast` succeeds exactly at the type a pointer was erased at, as `std::any` documents.
-/

set_option autoImplicit false

namespace StanoPlatform
namespace Di

/-- A Rust type, as far as the container tells types apart. -/
inductive RustType where
  -- Any type the container has no business with, `dyn Trait` types included, by its path.
  | named (path : String)
  -- `Arc<t>`.
  | arc (t : RustType)
  -- `TraitObject<u>`, the key wrapper of `container.rs`.
  | traitObject (u : RustType)
  deriving DecidableEq, Repr

/-- `std::any::TypeId`: distinct types have distinct ids, so a type is its own id. -/
abbrev TypeId : Type := RustType

def TypeId.of (T : RustType) : TypeId := T

/-- `TraitObject::<U>::type_id()`, i.e. `TypeId::of::<TraitObject<U>>()`. -/
def TraitObject.typeId (U : RustType) : TypeId := TypeId.of (.traitObject U)

def typeName : RustType → String
  | .named path => path
  | .arc t => "alloc::sync::Arc<" ++ typeName t ++ ">"
  | .traitObject u => "stano_di::container::TraitObject<" ++ typeName u ++ ">"

/-- An `Arc<T>`: the address of the instance. No value of `TraitObject` can be built, so there
is no pointer to one; `Arc::new` of an `Arc<U>` points at the same instance through one more
allocation, which nothing observes. -/
def Arc : RustType → Type
  | .named _ => Nat
  | .arc t => Arc t
  | .traitObject _ => Empty

/-- `Arc::new(instance)` for `instance : Arc<U>`. -/
def Arc.new {U : RustType} (instance_ : Arc U) : Arc (.arc U) := instance_

/-- `(*outer).clone()` for `outer : &Arc<U>`. -/
def Arc.inner {U : RustType} (outer : Arc (.arc U)) : Arc U := outer

/-- An `Arc<dyn Any + Send + Sync>`: a pointer and the type it was erased at. -/
structure AnyArc where
  ty : RustType
  ptr : Arc ty

/-- `instance.downcast::<T>().ok()`; `downcast_ref::<T>()` is the same test. -/
def AnyArc.downcast (a : AnyArc) (T : RustType) : Option (Arc T) :=
  if h : a.ty = T then some (h ▸ a.ptr) else none

@[simp] theorem AnyArc.downcast_mk (T : RustType) (p : Arc T) :
    (AnyArc.mk T p).downcast T = some p := by
  simp [AnyArc.downcast]

theorem AnyArc.downcast_eq_some {a : AnyArc} {T : RustType} (h : a.ty = T) :
    ∃ p, a.downcast T = some p ∧ a = ⟨T, p⟩ := by
  subst h
  exact ⟨a.ptr, AnyArc.downcast_mk _ _, rfl⟩

theorem AnyArc.eq_of_downcast {a : AnyArc} {T : RustType} {p : Arc T}
    (h : a.downcast T = some p) : a = ⟨T, p⟩ := by
  by_cases hty : a.ty = T
  · obtain ⟨q, hq, rfl⟩ := AnyArc.downcast_eq_some hty
    rw [hq] at h
    rw [Option.some.inj h]
  · rw [AnyArc.downcast, dif_neg hty] at h
    cases h

/-- The type a slot's content was erased at, by the slot's key: `T` itself for a concrete
component, `Arc<U>` for a trait component. -/
def storedType : TypeId → RustType
  | .traitObject u => .arc u
  | t => t

theorem named_ne_traitObject (path : String) (u : RustType) :
    RustType.named path ≠ .traitObject u :=
  nofun

theorem storedType_of_ne {T : RustType} (h : ∀ u, T ≠ .traitObject u) : storedType T = T := by
  cases T with
  | traitObject u => exact absurd rfl (h u)
  | named _ | arc _ => rfl

inductive ContainerError where
  | notRegistered (name : String)
  | downcastFailed (name : String)
  | factoryPanic (name : String)
  | cyclicDependency (names : List String)
  deriving DecidableEq, Repr

/-- A `OnceLock<T>`. `initializing` is the state between a caller's finding the lock empty and
its closure's return, which no safe caller can read but every concurrent one can block on. -/
inductive OnceLock (α : Type) where
  | empty
  | initializing
  | full (a : α)

/-- `lock.get().is_some()`: an initialisation in progress does not count. -/
def OnceLock.isSet {α : Type} : OnceLock α → Bool
  | .full _ => true
  | .empty | .initializing => false

end Di
end StanoPlatform
