import StanoPlatform.Axum.ErrorBody
import StanoPlatform.Example.Serving
import StanoPlatform.Lib.Lockstep

/-!
# `Example/Privacy.lean` — what the database says stays with the app

The text of a database error can be anything: a host name, a constraint, a piece of a row. It goes
into `ServiceError::Internal`, and from there into the extensions of the response and the log. Take
any run and change those texts: it is still a run, and over the wire it is the same.

The database is any that meets `Database.Documented`; two of its answers are alike if they are the
same, or both an error with a text. An error's text does reach the log, and the log is not sent.
-/

set_option autoImplicit false

namespace StanoPlatform
namespace Example

open Lib Axum Security

/-- Answers of the database, but for the text of an error. -/
inductive SameAnswer (statement : Statement) : statement.Answer → statement.Answer → Prop
  | refl (answer : statement.Answer) : SameAnswer statement answer answer
  | failed (text text' : String) :
    SameAnswer statement (.error (.other text)) (.error (.other text'))

/-- With either luck the database does the same, and answers the same but for an error's text. -/
def Database.SameButText (db : Database) (luck luck' : db.Luck) : Prop :=
  ∀ state statement state' answer, db.perform state statement luck = some (state', answer) →
    ∃ answer', db.perform state statement luck' = some (state', answer') ∧
      SameAnswer statement answer answer'

def SameSent (response response' : Response) : Prop := response.sent = response'.sent

theorem Database.setting_alike (db : Database) (timedOut : Response) :
    (db.setting timedOut).Alike SameAnswer SameSent db.SameButText where
  perform state state' statement _ _ answer hluck := hluck state statement state' answer
  lost text text' _ := .failed text text'
  timedOut := rfl

variable {M : Matchit} {crates : Crates} {lib : Nat → Jsonwebtoken AppClaims}
  {layer : AuthorizationLayer M AppClaims}

theorem app_alike (hrouting : crates.Routing) (incoming : Incoming) :
    (app crates lib layer serviceImpl incoming).Alike SameAnswer SameSent
      (app crates lib layer serviceImpl incoming) := by
  rw [app_eq crates lib layer hrouting]
  cases incoming.wants crates lib layer with
  | answered response => exact .done rfl
  | asks call stripped =>
    rw [Wants.task, WidgetService.call_eq, Task.call_bind]
    refine .call _ fun answer answer' hanswer => .done ?_
    cases hanswer with
    | refl => rfl
    | failed text text' =>
      rw [call.reply_lost, call.reply_lost]
      cases stripped with
      | false => rfl
      | true =>
        rw [render, render, strip, strip, if_pos rfl, if_pos rfl, hrouting.stripBody,
          hrouting.stripBody]
        rfl

variable {ι : Type}

/-- What a client sees of the history. -/
def overTheWire : Observed ι Incoming Response → Observed ι Incoming Sent
  | .invoked id incoming => .invoked id incoming
  | .responded id response => .responded id response.sent

theorem overTheWire_eq {history history' : List (Observed ι Incoming Response)}
    (h : List.Forall₂ (Observed.Alike SameSent) history history') :
    history.map overTheWire = history'.map overTheWire := by
  induction h with
  | nil => rfl
  | cons halike _ ih =>
    rw [List.map_cons, List.map_cons, ih]
    cases halike with
    | invoked id incoming => rfl
    | responded id hsent => rw [overTheWire, overTheWire, hsent]

variable [DecidableEq ι]

/-- **Database errors are private.** Change the texts of the errors in a run: it is still a run, to
the same state, and every client is sent what it was sent before. -/
theorem database_errors_private (db : Database) (crates : Crates) (hrouting : crates.Routing)
    (lib : Nat → Jsonwebtoken AppClaims) (layer : AuthorizationLayer M AppClaims)
    (state : db.State) (events events' : List (AppEvent db ι))
    (hevents : List.Forall₂ (ClientEvent.Alike db.SameButText) events events') (m : App db ι)
    (hrun : run (AppEvent.step db crates lib layer) (Clients.start state) events = some m) :
    ∃ m', run (AppEvent.step db crates lib layer) (Clients.start state) events' = some m' ∧
      m'.shared = m.shared ∧ m'.history.map overTheWire = m.history.map overTheWire := by
  obtain ⟨m', hrun', halike⟩ :=
    run_alike (app_alike hrouting) (db.setting_alike crates.timedOut) hevents hrun
  exact ⟨m', hrun', halike.shared.symm, (overTheWire_eq halike.history).symm⟩

/-- Two lucks of the table that differ in the text only. -/
theorem tableDatabase_sameButText (order : List Model) (text text' : String) :
    tableDatabase.SameButText (⟨order, text⟩ : Luck) (⟨order, text'⟩ : Luck) := by
  intro table statement table' answer h
  cases statement with
  | insert active =>
    simp only [tableDatabase] at h ⊢
    split at h <;> cases h
    · exact ⟨_, by rw [dif_pos ‹_›], .refl _⟩
    · exact ⟨_, by rw [dif_neg ‹_›], .failed _ _⟩
  | findById id | findAll | update active => exact ⟨answer, h, .refl _⟩

/-- Two widgets of one id: the database refuses the second, and gives a reason; then a connection is
lost, and gives another. -/
def lostEvents (duplicate lost : String) : List (AppEvent tableDatabase Nat) :=
  [.arrives 0 createSprocket, .performs 0 noLuck, .answers 0,
    .arrives 1 createSprocket, .performs 1 (⟨[], duplicate⟩ : Luck), .answers 1,
    .arrives 2 getSprocket, .fails 2 lost, .answers 2]

theorem database_errors_private_lost : ∃ m m' : App tableDatabase Nat,
    run (AppEvent.step tableDatabase someCrates (fun _ => .keyless AppClaims) openLayer)
      (Clients.start Table.empty) (lostEvents "widgets_pkey" "server closed the connection") =
        some m ∧
    run (AppEvent.step tableDatabase someCrates (fun _ => .keyless AppClaims) openLayer)
      (Clients.start Table.empty) (lostEvents "Key (id) exists" "timeout at db-1.internal:5432") =
        some m' ∧
    m'.history.map overTheWire = m.history.map overTheWire := by
  have hsame : tableDatabase.SameButText noLuck noLuck := tableDatabase_sameButText [] "" ""
  have hevents : List.Forall₂ (ClientEvent.Alike tableDatabase.SameButText)
      (lostEvents "widgets_pkey" "server closed the connection")
      (lostEvents "Key (id) exists" "timeout at db-1.internal:5432") :=
    .cons (.arrives 0 createSprocket) <| .cons (.performs 0 hsame) <| .cons (.answers 0) <|
      .cons (.arrives 1 createSprocket) <|
      .cons (.performs 1 (tableDatabase_sameButText [] "widgets_pkey" "Key (id) exists")) <|
      .cons (.answers 1) <| .cons (.arrives 2 getSprocket) <| .cons (.fails 2 _ _) <|
      .cons (.answers 2) .nil
  obtain ⟨m', hrun', -, hsent⟩ := database_errors_private tableDatabase someCrates
    someCrates_routing (fun _ => .keyless AppClaims) openLayer Table.empty _ _ hevents _ rfl
  exact ⟨_, m', rfl, hrun', hsent⟩

end Example
end StanoPlatform
