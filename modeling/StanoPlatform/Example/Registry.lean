import StanoPlatform.Example.Widget

/-!
# `Example/Registry.lean` — what the widgets are for

A registry: names by id, to which a widget can be added, and whose widgets can be looked up, listed
and renamed (`Serves`). Each call of the service is one statement (`WidgetService.call_eq`). One
that takes effect is one step of the registry the table stands for, unless the database refuses it
(`Executes.serves`).

The registry is what the app is for, in its own words: it knows nothing of rows, statements and
errors of a database. It is not translated from anything; `Executes.serves` connects it to the
statements, and `WidgetService.call_eq` those to the service and the repository of the source.
-/

set_option autoImplicit false

namespace StanoPlatform
namespace Example

open Lib Axum

/-- The names of the widgets there are. -/
abbrev Registry : Type := Uuid → Option String

namespace Table

variable (table : Table)

def registry (id : Uuid) : Option String := (table.find? id).map Model.name

variable {table}

theorem find?_eq_some {id : Uuid} {row : Model} :
    table.find? id = some row ↔ row ∈ table.rows ∧ row.id = id := by
  rw [find?]
  constructor
  · intro h
    exact ⟨List.mem_of_find?_eq_some h, by simpa using List.find?_some h⟩
  · rintro ⟨hrow, rfl⟩
    -- the primary key leaves no other row to be found first
    have hkey : ∀ other ∈ table.rows, other.id = row.id → other = row :=
      fun other hother h => List.inj_on_of_nodup_map table.primaryKey hother hrow h
    have hsome : (table.rows.find? (·.id = row.id)).isSome :=
      List.find?_isSome.mpr ⟨row, hrow, decide_eq_true rfl⟩
    obtain ⟨other, hother⟩ := Option.isSome_iff_exists.mp hsome
    have hid : other.id = row.id := by simpa using List.find?_some hother
    rw [hother, hkey other (List.mem_of_find?_eq_some hother) hid]

theorem registry_eq_some {id : Uuid} {name : String} :
    table.registry id = some name ↔ ⟨id, name⟩ ∈ table.rows := by
  rw [registry, Option.map_eq_some_iff]
  constructor
  · rintro ⟨row, hrow, rfl⟩
    obtain ⟨hmem, rfl⟩ := find?_eq_some.mp hrow
    exact hmem
  · exact fun h => ⟨_, find?_eq_some.mpr ⟨h, rfl⟩, rfl⟩

theorem registry_eq_none {id : Uuid} : table.registry id = none ↔ id ∉ table.ids := by
  rw [registry, Option.map_eq_none_iff, find?, List.find?_eq_none, ids, List.mem_map]
  simp

theorem registry_ext {reg : Registry}
    (h : ∀ id name, ⟨id, name⟩ ∈ table.rows ↔ reg id = some name) :
    table.registry = reg := by
  funext id
  refine Option.ext fun name => ?_
  rw [registry_eq_some, h]

theorem registry_insert {model : Model} (hnew : model.id ∉ table.ids) :
    (table.insert model hnew).registry =
      Function.update table.registry model.id (some model.name) := by
  refine registry_ext fun id name => ?_
  rw [insert, List.mem_append, List.mem_singleton, ← registry_eq_some]
  by_cases hid : id = model.id
  · subst hid
    rw [registry_eq_none.mpr hnew, Function.update_self]
    simp [Model.ext_iff, eq_comm]
  · rw [Function.update_of_ne hid]
    simp [Model.ext_iff, hid]

theorem registry_update {model : Model} (hold : model.id ∈ table.ids) :
    (table.update model).registry =
      Function.update table.registry model.id (some model.name) := by
  refine registry_ext fun id name => ?_
  rw [update, List.mem_map]
  by_cases hid : id = model.id
  · subst hid
    -- at the id itself there is the row that was replaced, and no other
    rw [Function.update_self, Option.some.injEq]
    constructor
    · rintro ⟨row, -, hrow⟩
      have hrowId : row.id = model.id := by rw [← id_replace model row, hrow]
      rw [replace, if_pos hrowId] at hrow
      exact congrArg Model.name hrow
    · rintro rfl
      obtain ⟨row, hrow, hrowId⟩ := List.mem_map.mp hold
      exact ⟨row, hrow, if_pos hrowId⟩
  · rw [Function.update_of_ne hid, registry_eq_some]
    constructor
    · rintro ⟨row, hrow, heq⟩
      have hrowId : row.id = id := by rw [← id_replace model row, heq]
      rw [replace, if_neg (hrowId ▸ hid)] at heq
      exact heq ▸ hrow
    · exact fun h => ⟨_, h, if_neg hid⟩

end Table

/-! ## The calls -/

/-- The calls of the service. -/
inductive WidgetCall where
  | create (newId : Uuid) (name : String)
  | get (id : WidgetId)
  | list
  | update (widget : Widget)

inductive WidgetAnswer where
  | widget (widget : Widget)
  | widgets (widgets : List Widget)

def WidgetService.call (service : WidgetService) :
    WidgetCall → Db (Except ServiceError WidgetAnswer)
  | .create newId name => do return (← service.create newId name).map .widget
  | .get id => do return (← service.get id).map .widget
  | .list => do return (← service.list).map .widgets
  | .update widget => do return (← service.update widget).map .widget

/-- **What a call owes**, by the names there are before and after it. -/
inductive Serves : Registry → WidgetCall → Except ServiceError WidgetAnswer → Registry → Prop
  | created {registry : Registry} {newId : Uuid} {name : String} (hnew : registry newId = none) :
    Serves registry (.create newId name) (.ok (.widget ⟨⟨newId⟩, name⟩))
      (Function.update registry newId (some name))
  | got {registry : Registry} {id : WidgetId} {name : String} (h : registry id.uuid = some name) :
    Serves registry (.get id) (.ok (.widget ⟨id, name⟩)) registry
  | missing {registry : Registry} {id : WidgetId} (h : registry id.uuid = none) :
    Serves registry (.get id) (.error .notFound) registry
  | listed {registry : Registry} {widgets : List Widget}
    (hnodup : (widgets.map Widget.id).Nodup)
    (h : ∀ widget, widget ∈ widgets ↔ registry widget.id.uuid = some widget.name) :
    Serves registry .list (.ok (.widgets widgets)) registry
  | updated {registry : Registry} {widget : Widget} (h : registry widget.id.uuid ≠ none) :
    Serves registry (.update widget) (.ok (.widget widget))
      (Function.update registry widget.id.uuid (some widget.name))
  | nothingToUpdate {registry : Registry} {widget : Widget} (h : registry widget.id.uuid = none) :
    Serves registry (.update widget) (.error .notFound) registry

/-! ## Reading what was written -/

/-- The call gives the widget of an id a name. -/
def WidgetCall.Writes : WidgetCall → Uuid → String → Prop
  | .create newId newName, id, name => newId = id ∧ newName = name
  | .update widget, id, name => widget = ⟨⟨id⟩, name⟩
  | .get _, _, _ | .list, _, _ => False

/-- The call is about the widget of an id that is there, or about all of them. -/
def WidgetCall.Reads : WidgetCall → Uuid → Prop
  | .get wanted, id => wanted = ⟨id⟩
  | .list, _ => True
  | .update widget, id => widget.id = ⟨id⟩
  | .create _ _, _ => False

/-- The answer has the widget of an id once, with this name. -/
def WidgetAnswer.Shows (id : Uuid) (name : String) : WidgetAnswer → Prop
  | .widget shown => shown = ⟨⟨id⟩, name⟩
  | .widgets shown => shown.filter (·.id = ⟨id⟩) = [⟨⟨id⟩, name⟩]

/-- A key picks its element. -/
theorem filter_key {α β : Type} [DecidableEq β] {key : α → β} {l : List α} {x : α}
    (hnodup : (l.map key).Nodup) (hx : x ∈ l) : l.filter (key · = key x) = [x] := by
  induction l with
  | nil => cases hx
  | cons y l ih =>
    obtain ⟨hy, hl⟩ := List.nodup_cons.mp hnodup
    rcases List.mem_cons.mp hx with rfl | hx
    · have hnone : l.filter (key · = key x) = [] := by
        rw [List.filter_eq_nil_iff]
        intro z hz
        have hne : key z ≠ key x := fun h => hy (h ▸ List.mem_map_of_mem hz)
        simpa using hne
      rw [List.filter_cons_of_pos (by simp), hnone]
    · have hne : key y ≠ key x := fun h => hy (h ▸ List.mem_map_of_mem hx)
      rw [List.filter_cons_of_neg (by simpa using hne)]
      exact ih hl hx

theorem Serves.writes {registry registry' : Registry} {call : WidgetCall}
    {answer : Except ServiceError WidgetAnswer} (h : Serves registry call answer registry')
    (id : Uuid) :
    registry' id = registry id ∨ ∃ name, call.Writes id name ∧ registry' id = some name := by
  cases h with
  | got | missing | listed | nothingToUpdate => exact .inl rfl
  | @created newId name hnew =>
    by_cases hid : id = newId
    · subst hid
      exact .inr ⟨name, ⟨rfl, rfl⟩, Function.update_self _ _ _⟩
    · exact .inl (Function.update_of_ne hid _ _)
  | @updated widget h =>
    by_cases hid : id = widget.id.uuid
    · subst hid
      exact .inr ⟨widget.name, rfl, Function.update_self _ _ _⟩
    · exact .inl (Function.update_of_ne hid _ _)

/-- An acknowledged write is done. -/
theorem Serves.written {registry registry' : Registry} {call : WidgetCall} {answer : WidgetAnswer}
    (h : Serves registry call (.ok answer) registry') {id : Uuid} {name : String}
    (hwrites : call.Writes id name) : registry' id = some name := by
  cases h with
  | got | listed => exact hwrites.elim
  | created hnew =>
    obtain ⟨rfl, rfl⟩ := hwrites
    exact Function.update_self _ _ _
  | updated h =>
    cases hwrites
    exact Function.update_self _ _ _

/-- What is there is shown, or what the call makes of it. -/
theorem Serves.read {registry registry' : Registry} {call : WidgetCall}
    {answer : Except ServiceError WidgetAnswer} (h : Serves registry call answer registry')
    {id : Uuid} {name : String} (hreads : call.Reads id) (hname : registry id = some name) :
    ∃ shown found, answer = .ok shown ∧ shown.Shows id found ∧
      (found = name ∨ call.Writes id found) := by
  cases h with
  | created => exact hreads.elim
  | got h =>
    cases hreads
    cases hname.symm.trans h
    exact ⟨_, name, rfl, rfl, .inl rfl⟩
  | missing h =>
    cases hreads
    cases hname.symm.trans h
  | @listed widgets hnodup h =>
    -- a list has every widget once, so what it has under this id is the widget
    have hmem : ⟨⟨id⟩, name⟩ ∈ widgets := (h ⟨⟨id⟩, name⟩).mpr hname
    exact ⟨_, name, rfl, filter_key hnodup hmem, .inl rfl⟩
  | @updated widget h =>
    obtain ⟨widgetId, newName⟩ := widget
    cases hreads
    -- an update answers with the widget as it has left it
    exact ⟨_, newName, rfl, rfl, .inr rfl⟩
  | @nothingToUpdate widget h =>
    obtain ⟨widgetId, newName⟩ := widget
    cases hreads
    cases hname.symm.trans h

namespace WidgetCall

/-- The statement a call sends. -/
def statement : WidgetCall → Statement
  | .create newId name => .insert ⟨newId, name⟩
  | .get id => .findById id.uuid
  | .list => .findAll
  | .update widget => .update ⟨widget.id.uuid, widget.name⟩

/-- What it makes of the answer. -/
def reply : (call : WidgetCall) → call.statement.Answer → Except ServiceError WidgetAnswer
  | .create _ _, .ok model => .ok (.widget (WidgetMapper.toDomain model))
  | .create _ _, .error err => .error err.toServiceError
  | .get _, .ok (some model) => .ok (.widget (WidgetMapper.toDomain model))
  | .get _, .ok none => .error .notFound
  | .get _, .error err => .error err.toServiceError
  | .list, .ok models => .ok (.widgets (models.map WidgetMapper.toDomain))
  | .list, .error err => .error err.toServiceError
  | .update _, .ok model => .ok (.widget (WidgetMapper.toDomain model))
  | .update _, .error .recordNotUpdated => .error .notFound
  | .update _, .error (.other text) => .error (.internal text)

theorem reply_lost (call : WidgetCall) (text : String) :
    call.reply (.error (.other text)) = .error (.internal text) := by
  cases call <;> rfl

end WidgetCall

/-- **Every call is one statement.** -/
theorem WidgetService.call_eq (call : WidgetCall) :
    (widgetServiceImpl seaOrmWidgetRepository).call call =
      .call call.statement fun ans => .done (call.reply ans) := by
  cases call with
  | create newId name =>
    refine congrArg (Task.call _) (funext fun ans => ?_)
    cases ans <;> rfl
  | get id =>
    refine congrArg (Task.call _) (funext fun ans => ?_)
    obtain _ | _ | _ := ans <;> rfl
  | list =>
    refine congrArg (Task.call _) (funext fun ans => ?_)
    cases ans <;> rfl
  | update widget =>
    refine congrArg (Task.call _) (funext fun ans => ?_)
    obtain (_ | _) | _ := ans <;> rfl

/-- **A statement that takes effect is one step of the registry**, unless it is refused. -/
theorem Executes.serves {table table' : Table} {call : WidgetCall} {ans : call.statement.Answer}
    (h : Executes table call.statement ans table') :
    Serves table.registry call (call.reply ans) table'.registry ∨
      table' = table ∧ ∃ text, call.reply ans = .error (.internal text) := by
  cases call with
  | create newId name =>
    cases h with
    | inserted hnew =>
      rw [Table.registry_insert]
      exact .inl (.created (Table.registry_eq_none.mpr hnew))
    -- a refusal leaves the table alone, and the answer is the error
    | refused text => exact .inr ⟨rfl, text, rfl⟩
  | get id =>
    cases h with
    | refused text => exact .inr ⟨rfl, text, rfl⟩
    | found =>
      left
      cases hfound : table.find? id.uuid with
      | none => exact .missing (by rw [Table.registry, hfound]; rfl)
      | some row =>
        obtain ⟨rowId, name⟩ := row
        obtain ⟨hrow, rfl⟩ := Table.find?_eq_some.mp hfound
        exact .got (Table.registry_eq_some.mpr hrow)
  | list =>
    cases h with
    | refused text => exact .inr ⟨rfl, text, rfl⟩
    | @all rows hperm =>
      refine .inl (.listed ?_ fun widget => ?_)
      -- ids are unique in an answer because they are in the table
      · have hids : (rows.map WidgetMapper.toDomain).map Widget.id =
            (rows.map Model.id).map WidgetId.mk := by
          rw [List.map_map, List.map_map]
          rfl
        rw [hids]
        exact ((hperm.map Model.id).nodup_iff.mpr table.primaryKey).map fun _ _ => WidgetId.mk.inj
      · rw [Table.registry_eq_some, ← hperm.mem_iff, List.mem_map]
        constructor
        · rintro ⟨row, hrow, rfl⟩
          exact hrow
        · exact fun hrow => ⟨_, hrow, rfl⟩
  | update widget =>
    cases h with
    | updated hold =>
      rw [Table.registry_update hold]
      exact .inl (.updated fun hnone => Table.registry_eq_none.mp hnone hold)
    | notUpdated hnone => exact .inl (.nothingToUpdate (Table.registry_eq_none.mpr hnone))
    | refused text => exact .inr ⟨rfl, text, rfl⟩

end Example
end StanoPlatform
