import StanoPlatform.Lib.Clients

/-!
# `Lib/Lockstep.lean` — two runs, seen alike

What a client does not see of a run is what another run may have differently, that looks the same.
Two objects that are asked the same may answer differently, as far as the tasks take the answers for
alike (`Task.Alike`); then whatever happens in one run happens in the other (`run_alike`).
-/

set_option autoImplicit false

namespace StanoPlatform
namespace Lib

/-- **The simulation rule.** -/
theorem run_simulates {σ σ' ε ε' : Type} {step : σ → ε → Option σ} {step' : σ' → ε' → Option σ'}
    (R : σ → σ' → Prop) (E : ε → ε' → Prop)
    (hstep : ∀ s s' e e' t, R s s' → E e e' → step s e = some t →
      ∃ t', step' s' e' = some t' ∧ R t t')
    {s t : σ} {s' : σ'} {es : List ε} {es' : List ε'} (hs : R s s') (hes : List.Forall₂ E es es')
    (hrun : run step s es = some t) : ∃ t', run step' s' es' = some t' ∧ R t t' := by
  induction hes generalizing s s' with
  | nil =>
    cases hrun
    exact ⟨s', rfl, hs⟩
  | cons he _ ih =>
    obtain ⟨t₁, ht₁, hrest⟩ := Option.bind_eq_some_iff.mp hrun
    obtain ⟨t₁', ht₁', hR⟩ := hstep _ _ _ _ _ hs he ht₁
    obtain ⟨t', ht', hR'⟩ := ih hR hrest
    exact ⟨t', by rw [run, ht₁', Option.bind_some, ht'], hR'⟩

/-! ## What is alike -/

variable {ι Call ρ σ χ φ Op : Type} {Ans : Op → Type}

section

variable (A : ∀ op, Ans op → Ans op → Prop) (R : ρ → ρ → Prop)

/-- Tasks that ask the same, and go on alike after answers that are alike. -/
inductive Task.Alike : Task Op Ans ρ → Task Op Ans ρ → Prop
  | done {r r' : ρ} (h : R r r') : Alike (.done r) (.done r')
  | call (op : Op) {k k' : Ans op → Task Op Ans ρ} (h : ∀ a a', A op a a' → Alike (k a) (k' a')) :
    Alike (.call op k) (.call op k')

inductive Phase.Alike : Phase Op Ans ρ → Phase Op Ans ρ → Prop
  | absent : Alike .absent .absent
  | running (asked : Bool) {t t' : Task Op Ans ρ} (h : t.Alike A R t') :
    Alike (.running asked t) (.running asked t')
  | ended : Alike .ended .ended

inductive Observed.Alike : Observed ι Call ρ → Observed ι Call ρ → Prop
  | invoked (id : ι) (call : Call) : Alike (.invoked id call) (.invoked id call)
  | responded (id : ι) {r r' : ρ} (h : R r r') : Alike (.responded id r) (.responded id r')

inductive ClientEvent.Alike (L : χ → χ → Prop) :
    ClientEvent ι Call Op χ φ → ClientEvent ι Call Op χ φ → Prop
  | arrives (id : ι) (call : Call) : Alike L (.arrives id call) (.arrives id call)
  | performs (id : ι) {luck luck' : χ} (h : L luck luck') :
    Alike L (.performs id luck) (.performs id luck')
  | fails (id : ι) (reason reason' : φ) : Alike L (.fails id reason) (.fails id reason')
  | answers (id : ι) : Alike L (.answers id) (.answers id)
  | timesOut (id : ι) : Alike L (.timesOut id) (.timesOut id)
  | leaves (id : ι) : Alike L (.leaves id) (.leaves id)
  | lands (id : ι) (op : Op) {luck luck' : χ} (h : L luck luck') :
    Alike L (.lands id op luck) (.lands id op luck')

/-- The same object with the same under way, and everything else alike. -/
structure Clients.Alike (m m' : Clients σ ι Call ρ Op Ans) : Prop where
  shared : m.shared = m'.shared
  phase : ∀ id, (m.phase id).Alike A R (m'.phase id)
  underway : m.underway = m'.underway
  history : List.Forall₂ (Observed.Alike R) m.history m'.history

/-- Of two lucks that are alike the one does what the other does, and the answers are alike; and
whatever the reason, a question that is lost is answered alike. -/
structure Setting.Alike (setting : Setting σ Op Ans ρ χ φ) (L : χ → χ → Prop) : Prop where
  perform : ∀ s s₁ op luck luck' a, L luck luck' → setting.perform s op luck = some (s₁, a) →
    ∃ a', setting.perform s op luck' = some (s₁, a') ∧ A op a a'
  lost : ∀ reason reason' op, A op (setting.lost reason op) (setting.lost reason' op)
  timedOut : R setting.timedOut setting.timedOut

end

variable {A : ∀ op, Ans op → Ans op → Prop} {R : ρ → ρ → Prop} {L : χ → χ → Prop}
  {setting : Setting σ Op Ans ρ χ φ} {task task' : Call → Task Op Ans ρ}

theorem Clients.Alike.start (shared : σ) :
    (Clients.start shared : Clients σ ι Call ρ Op Ans).Alike A R (.start shared) :=
  ⟨rfl, fun _ => .absent, rfl, .nil⟩

theorem Task.Alike.asks {t t' : Task Op Ans ρ} (h : t.Alike A R t') : t.asks = t'.asks := by
  cases h <;> rfl

variable [DecidableEq ι]

theorem Clients.Alike.update {m m' : Clients σ ι Call ρ Op Ans} (hm : m.Alike A R m') (id : ι)
    (shared : σ) (underway : ι → List Op) {phase phase' : Phase Op Ans ρ}
    (hphase : phase.Alike A R phase') {seen seen' : List (Observed ι Call ρ)}
    (hseen : List.Forall₂ (Observed.Alike R) seen seen') :
    Clients.Alike A R ⟨shared, Function.update m.phase id phase, underway, m.history ++ seen⟩
      ⟨shared, Function.update m'.phase id phase', underway, m'.history ++ seen'⟩ := by
  refine ⟨rfl, fun j => ?_, rfl, List.rel_append hm.history hseen⟩
  rcases eq_or_ne j id with rfl | hj
  · simpa only [Function.update_self] using hphase
  · simpa only [Function.update_of_ne hj] using hm.phase j

variable [DecidableEq Op]

/-- **What one event does, it does in both.** -/
theorem Clients.Alike.step (htask : ∀ call, (task call).Alike A R (task' call))
    (hsetting : setting.Alike A R L) {m m' m₁ : Clients σ ι Call ρ Op Ans}
    {event event' : ClientEvent ι Call Op χ φ} (hm : m.Alike A R m') (hevent : event.Alike L event')
    (hstep : event.step task setting m = some m₁) :
    ∃ m₁', event'.step task' setting m' = some m₁' ∧ m₁.Alike A R m₁' := by
  have hstepped := ClientEvent.stepped hstep
  have hid := hm.phase event.id
  generalize hphase' : m'.phase event.id = phase' at hid
  cases hstepped with
  | arrives id call hphase =>
    cases hevent
    rw [ClientEvent.id, hphase] at hid
    cases hid
    refine ⟨_, (Stepped.arrives id call hphase').step, ?_⟩
    rw [hm.shared, hm.underway]
    exact hm.update id _ _ (.running false (htask call)) (.cons (.invoked id call) .nil)
  | performs id luck hphase hanswer =>
    cases hevent with
    | performs _ hluck =>
      rw [ClientEvent.id, hphase] at hid
      cases hid with
      | running asked hasks =>
        cases hasks with
        | call op hgoes =>
          obtain ⟨a', hanswer', ha⟩ := hsetting.perform _ _ _ _ _ _ hluck hanswer
          rw [hm.shared] at hanswer'
          refine ⟨_, (Stepped.performs id _ hphase' hanswer').step, ?_⟩
          rw [hm.underway]
          simpa only [List.append_nil] using hm.update id _ _ (.running true (hgoes _ _ ha)) .nil
  | fails id reason hphase =>
    cases hevent with
    | fails _ _ reason' =>
      rw [ClientEvent.id, hphase] at hid
      cases hid with
      | running asked hasks =>
        cases hasks with
        | call op hgoes =>
          refine ⟨_, (Stepped.fails id reason' hphase').step, ?_⟩
          rw [hm.shared, hm.underway]
          simpa only [List.append_nil] using
            hm.update id _ _ (.running true (hgoes _ _ (hsetting.lost reason reason' _))) .nil
  | answers id hphase =>
    cases hevent
    rw [ClientEvent.id, hphase] at hid
    cases hid with
    | running asked hdone =>
      cases hdone with
      | done hr =>
        refine ⟨_, (Stepped.answers id hphase').step, ?_⟩
        rw [hm.shared, hm.underway]
        exact hm.update id _ _ .ended (.cons (.responded id hr) .nil)
  | timesOut id hphase hwaits =>
    cases hevent
    rw [ClientEvent.id, hphase] at hid
    cases hid with
    | running asked halike =>
      refine ⟨_, (Stepped.timesOut id hphase' (halike.asks ▸ hwaits)).step, ?_⟩
      rw [hm.shared, hm.underway, halike.asks]
      exact hm.update id _ _ .ended (.cons (.responded id hsetting.timedOut) .nil)
  | leaves id hphase =>
    cases hevent
    rw [ClientEvent.id, hphase] at hid
    cases hid with
    | running asked halike =>
      refine ⟨_, (Stepped.leaves id hphase').step, ?_⟩
      rw [hm.shared, hm.underway, halike.asks]
      simpa only [List.append_nil] using hm.update id _ _ .ended .nil
  | lands id op luck hop hanswer =>
    cases hevent with
    | lands _ _ hluck =>
      obtain ⟨a', hanswer', -⟩ := hsetting.perform _ _ _ _ _ _ hluck hanswer
      rw [hm.shared] at hanswer'
      refine ⟨_, (Stepped.lands id _ _ (hm.underway ▸ hop) hanswer').step, ?_⟩
      rw [hm.underway]
      exact ⟨rfl, hm.phase, rfl, hm.history⟩

/-- **Two runs that look the same.** -/
theorem run_alike (htask : ∀ call, (task call).Alike A R (task' call))
    (hsetting : setting.Alike A R L) {shared : σ} {m : Clients σ ι Call ρ Op Ans}
    {events events' : List (ClientEvent ι Call Op χ φ)}
    (hevents : List.Forall₂ (ClientEvent.Alike L) events events')
    (hrun : run (ClientEvent.step task setting) (Clients.start shared) events = some m) :
    ∃ m', run (ClientEvent.step task' setting) (Clients.start shared) events' = some m' ∧
      m.Alike A R m' :=
  run_simulates (Clients.Alike A R) (ClientEvent.Alike L)
    (fun _ _ _ _ _ hm hevent hstep => hm.step htask hsetting hevent hstep) (.start shared) hevents
    hrun

end Lib
end StanoPlatform
