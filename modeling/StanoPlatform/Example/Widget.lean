import Mathlib.Data.List.Perm.Basic
import StanoPlatform.Axum.ApiError
import StanoPlatform.Lib.Clients

/-!
# `Example/Widget.lean` — widgets, from the service down to the table

The example app keeps widgets in one Postgres table, behind a repository port and a service that
delegates to it. Every call sends the database one statement and waits.

Postgres, sqlx and SeaORM are a parameter (`Database`). What is used of their documentation is that
a statement, when it takes effect, does to the table what `Executes` says (`Database.Documented`).
When that is they leave open: a connection may be lost before the statement has taken effect, while
it is under way, or after, and the caller gets the same error (`Database.setting`).

From the crates `domain`, `services` and `persistence` of `stano-example-app`. SeaORM is taken to
send one statement for each of `insert`, `find_by_id`, `find` and `update`, and to report an update
of no row as `RecordNotUpdated`, as its documentation has it.
-/

set_option autoImplicit false

namespace StanoPlatform
namespace Example

open Lib Axum

/-! ## The domain -/

/-- `uuid::Uuid` -/
abbrev Uuid : Type := BitVec 128

/-- `id_type!(WidgetId, uuid_v7)` -/
structure WidgetId where
  uuid : Uuid
  deriving DecidableEq

structure Widget where
  id : WidgetId
  name : String
  deriving DecidableEq

/-! ## Rows and statements -/

/-- The entity of the `widgets` table. -/
@[ext] structure Model where
  id : Uuid
  name : String
  deriving DecidableEq

/-- `entity::ActiveModel`, with both of its values `Set`. -/
structure ActiveModel where
  id : Uuid
  name : String
  deriving DecidableEq

def ActiveModel.model (active : ActiveModel) : Model := ⟨active.id, active.name⟩

inductive DbErr where
  | recordNotUpdated
  -- any other, by its text
  | other (text : String)
  deriving DecidableEq, Repr

inductive Statement where
  | insert (active : ActiveModel)
  | findById (id : Uuid)
  | findAll
  | update (active : ActiveModel)
  deriving DecidableEq

def Statement.Rows : Statement → Type
  | .insert _ => Model
  | .findById _ => Option Model
  | .findAll => List Model
  | .update _ => Model

abbrev Statement.Answer (statement : Statement) : Type := Except DbErr statement.Rows

/-- Code that waits for the database. -/
abbrev Db (α : Type) : Type := Task Statement Statement.Answer α

def query (statement : Statement) : Db statement.Answer := .call statement .done

/-! ## The adapter -/

namespace WidgetMapper

def toDomain (model : Model) : Widget := ⟨⟨model.id⟩, model.name⟩

def toActiveModel (domain : Widget) : ActiveModel := ⟨domain.id.uuid, domain.name⟩

end WidgetMapper

/-- `ServiceError::from(anyhow::Error::from(err))` -/
def DbErr.toServiceError : DbErr → ServiceError
  | .recordNotUpdated => .internal "None of the records are updated"
  | .other text => .internal text

/-- `dyn WidgetRepository`. What `WidgetId::new()` draws is an argument of `create`. -/
structure WidgetRepository where
  create : Uuid → String → Db (Except ServiceError Widget)
  get : WidgetId → Db (Except ServiceError Widget)
  list : Db (Except ServiceError (List Widget))
  update : Widget → Db (Except ServiceError Widget)

namespace SeaOrmWidgetRepository

def create (newId : Uuid) (name : String) : Db (Except ServiceError Widget) := do
  let widget : Widget := { id := ⟨newId⟩, name }
  let active := WidgetMapper.toActiveModel widget
  let model ← query (.insert active)
  return match model with
    | .ok model => .ok (WidgetMapper.toDomain model)
    | .error err => .error err.toServiceError

def get (id : WidgetId) : Db (Except ServiceError Widget) := do
  let found ← query (.findById id.uuid)
  return match found with
    | .ok (some model) => .ok (WidgetMapper.toDomain model)
    | .ok none => .error .notFound
    | .error err => .error err.toServiceError

def list : Db (Except ServiceError (List Widget)) := do
  let models ← query .findAll
  return match models with
    | .ok models => .ok (models.map WidgetMapper.toDomain)
    | .error err => .error err.toServiceError

def update (widget : Widget) : Db (Except ServiceError Widget) := do
  let active := WidgetMapper.toActiveModel widget
  let model ← query (.update active)
  return match model with
    | .ok model => .ok (WidgetMapper.toDomain model)
    | .error .recordNotUpdated => .error .notFound
    | .error (.other text) => .error (DbErr.toServiceError (.other text))

end SeaOrmWidgetRepository

def seaOrmWidgetRepository : WidgetRepository where
  create := SeaOrmWidgetRepository.create
  get := SeaOrmWidgetRepository.get
  list := SeaOrmWidgetRepository.list
  update := SeaOrmWidgetRepository.update

/-! ## The service -/

/-- `dyn WidgetService` -/
structure WidgetService where
  create : Uuid → String → Db (Except ServiceError Widget)
  get : WidgetId → Db (Except ServiceError Widget)
  list : Db (Except ServiceError (List Widget))
  update : Widget → Db (Except ServiceError Widget)

/-- `WidgetServiceImpl`, with the repository it was built with. -/
def widgetServiceImpl (repo : WidgetRepository) : WidgetService where
  create newId name := repo.create newId name
  get id := repo.get id
  list := repo.list
  update widget := repo.update widget

/-! ## The table -/

structure Table where
  rows : List Model
  primaryKey : (rows.map Model.id).Nodup

namespace Table

variable (table : Table)

def empty : Table := ⟨[], List.nodup_nil⟩

def ids : List Uuid := table.rows.map Model.id

def find? (id : Uuid) : Option Model := table.rows.find? (·.id = id)

def insert (model : Model) (hnew : model.id ∉ table.ids) : Table where
  rows := table.rows ++ [model]
  primaryKey := by
    rw [List.map_append, List.nodup_append]
    refine ⟨table.primaryKey, List.nodup_singleton _, ?_⟩
    intro a ha b hb heq
    rw [List.map_singleton, List.mem_singleton] at hb
    exact hnew (hb ▸ heq ▸ ha)

def replace (model row : Model) : Model := if row.id = model.id then model else row

theorem id_replace (model row : Model) : (replace model row).id = row.id := by
  rw [replace]
  split
  · rename_i h
    exact h.symm
  · rfl

def update (model : Model) : Table where
  rows := table.rows.map (replace model)
  primaryKey := by
    have hids : (table.rows.map (replace model)).map Model.id = table.rows.map Model.id := by
      rw [List.map_map]
      exact List.map_congr_left fun row _ => id_replace model row
    rw [hids]
    exact table.primaryKey

end Table

/-! ## What the database does -/

/-- What a statement does that takes effect by itself, and what is answered. -/
inductive Executes (table : Table) : (statement : Statement) → statement.Answer → Table → Prop
  | inserted {active : ActiveModel} (hnew : active.model.id ∉ table.ids) :
    Executes table (.insert active) (.ok active.model) (table.insert active.model hnew)
  | found (id : Uuid) : Executes table (.findById id) (.ok (table.find? id)) table
  | all {rows : List Model} (hperm : rows.Perm table.rows) :
    Executes table .findAll (.ok rows) table
  | updated {active : ActiveModel} (hold : active.id ∈ table.ids) :
    Executes table (.update active) (.ok active.model) (table.update active.model)
  -- `UPDATE .. RETURNING` without a row
  | notUpdated {active : ActiveModel} (hnone : active.id ∉ table.ids) :
    Executes table (.update active) (.error .recordNotUpdated) table
  -- a key that is there already, or whatever else the database will not do
  | refused {statement : Statement} (text : String) :
    Executes table statement (.error (.other text)) table

/-- Postgres, with sqlx and SeaORM in front of it. -/
structure Database where
  State : Type
  -- the rows of `widgets` that are committed
  table : State → Table
  -- what is up to it: the order of the rows it finds, whether it refuses a statement and why
  Luck : Type
  -- a statement at the moment when it takes effect
  perform : State → (statement : Statement) → Luck → Option (State × statement.Answer)

/-- What they document. A statement outside a transaction is one by itself: it reads one snapshot of
what is committed, its own change is committed at once or not at all, and two that change the same
row wait for each other. Nobody else writes to the table. -/
structure Database.Documented (db : Database) : Prop where
  executes : ∀ state statement luck state' answer,
    db.perform state statement luck = some (state', answer) →
      Executes (db.table state) statement answer (db.table state')

/-- A statement whose connection is lost fails with an error that is not `RecordNotUpdated`. That
says nothing of what has become of it. -/
def Database.setting {ρ : Type} (db : Database) (timedOut : ρ) :
    Setting db.State Statement Statement.Answer ρ db.Luck String where
  perform := db.perform
  lost text _ := .error (.other text)
  timedOut

/-! ### One such database -/

structure Luck where
  order : List Model
  text : String

/-- It keeps the table, and refuses keys that are there. -/
def tableDatabase : Database where
  State := Table
  table := id
  Luck := Luck
  perform table statement luck :=
    match statement with
    | .insert active =>
      if hnew : active.model.id ∉ table.ids then
        some (table.insert active.model hnew, .ok active.model)
      else some (table, .error (.other luck.text))
    | .findById id => some (table, .ok (table.find? id))
    | .findAll => if luck.order.isPerm table.rows then some (table, .ok luck.order) else none
    | .update active =>
      if active.id ∈ table.ids then some (table.update active.model, .ok active.model)
      else some (table, .error .recordNotUpdated)

theorem tableDatabase_documented : tableDatabase.Documented where
  executes table statement luck table' answer h := by
    cases statement with
    | insert active =>
      simp only [tableDatabase] at h
      split at h <;> cases h
      · exact .inserted ‹_›
      · exact .refused _
    | findById id =>
      cases h
      exact .found id
    | findAll =>
      simp only [tableDatabase] at h
      split at h <;> cases h
      rename_i hperm
      exact .all (List.isPerm_iff.mp hperm)
    | update active =>
      simp only [tableDatabase] at h
      split at h <;> cases h
      · exact .updated ‹_›
      · exact .notUpdated ‹_›

end Example
end StanoPlatform
