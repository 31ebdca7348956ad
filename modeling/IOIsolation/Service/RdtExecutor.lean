import IOIsolation.Lib.Dict
import IOIsolation.Lib.Path
import IOIsolation.Lib.Run

/-!
# Service.RdtExecutor

The executor of the RDT engine, which carries out the engine's events in the resctrl file system. An
event names a monitor group; the executor looks the group up when it handles the event, and goes on
with an empty group if there is none.

The tables of the engine are filled by any policy, and dispatched events are handled in any order.

* `resolve_path_iff` — the path of a group leads to the group's own directory if its names are proper
  file names, and nowhere that is its own otherwise.
* `handled_iff`      — what one event has to be for the executor to stay inside the group.
* `confined_iff`     — the same for whole runs of the engine.
-/

namespace IOIsolation.Service.RdtExecutor

open Lib Lib.Path Option

/-! ## The engine's tables -/

structure MonitorGroup where
  id : String
  controlGroupId : String
  deriving DecidableEq

structure ApplicationSpec where
  name : String
  deriving DecidableEq

/-- `state` is −1 for an application that has been unregistered. -/
structure Application where
  spec : ApplicationSpec
  state : Int
  deriving DecidableEq

inductive Operation where
  | add
  | remove
  | update
  deriving DecidableEq

/-- The events with the executor among their targets. -/
inductive EventData where
  | monitorGroup (id : String) (operation : Operation)
  | controlGroup (id : String) (operation : Operation)
  | taskIds (tasks : List Int) (monitorGroupPath : String)
  | refresh
  deriving DecidableEq

/-- `pending` are the events dispatched to the executor whose handler has not run yet. -/
structure Engine where
  apps : Dict String Application
  mgs : Dict String MonitorGroup
  pending : List EventData

/-- The Go function returns the empty group together with its error. -/
def getMonitorGroup (mgs : Dict String MonitorGroup) (id : String) : MonitorGroup × Option String :=
  match mgs.lookup id with
  | some grp => (grp, none)
  | none => (⟨"", ""⟩, some ("Don't have group which id is " ++ id))

def emitEvent (eng : Engine) (data : EventData) : Engine :=
  { eng with pending := eng.pending ++ [data] }

def registerApp (eng : Engine) (name : String) (app : ApplicationSpec) : Except String Engine :=
  if (eng.apps.lookup name).isSome then .error ("Duplicate application: " ++ name)
  else .ok { eng with apps := eng.apps.insert name ⟨app, 0⟩ }

def unRegisterApp (eng : Engine) (name : String) : Except String Engine :=
  match eng.apps.lookup name with
  | none => .error ("Application: " ++ name ++ " is not found")
  | some app => .ok { eng with apps := eng.apps.insert name { app with state := -1 } }

def createMonitorGroup (eng : Engine) (id : String) (grp : MonitorGroup) : Except String Engine :=
  if (eng.mgs.lookup id).isSome then .error ("Duplicate monitor group: " ++ id)
  else .ok (emitEvent { eng with mgs := eng.mgs.insert id grp } (.monitorGroup id .add))

/-- The group stays in the table. -/
def removeMonitorGroup (eng : Engine) (id : String) : Except String Engine :=
  match eng.mgs.lookup id with
  | none => .error ("Monitor Group: " ++ id ++ " is not found")
  | some _ => .ok (emitEvent eng (.monitorGroup id .remove))

/-- What the pid watcher does for the application `name` when it has found the tasks `ids`. -/
def watch (eng : Engine) (name : String) (ids : List Int) : Engine :=
  match eng.apps.lookup name with
  | none => eng
  | some app =>
    if app.state = -1 then eng
    else if 0 < ids.length then emitEvent eng (.taskIds ids app.spec.name)
    else eng

/-! ## The executor -/

def resctrlRoot : String := "/sys/fs/resctrl"

def monitorGroups : String := "mon_groups"

def getMonitorGroupPath (group : MonitorGroup) : String :=
  let path := if group.controlGroupId ≠ "" then resctrlRoot ++ "/" ++ group.controlGroupId
    else resctrlRoot
  if group.controlGroupId = group.id then path
  else
    let path := path ++ "/" ++ monitorGroups
    if group.id ≠ "" then path ++ "/" ++ group.id else path

/-- What the executor does to the file system. -/
inductive FileOp where
  | mkdir (path : String)
  | removeAll (path : String)
  | write (path : String) (id : Int)
  deriving DecidableEq

/-- A `tasks` file as an event's handler finds it: the ids in it, or the error of opening, reading or
parsing it; and the ids that the kernel takes. -/
structure TasksFile where
  curIds : Except String (List Int)
  accepts : Int → Bool

/-- The ids are written one by one, up to the first that fails. -/
def writeIds (file : TasksFile) (filename : String) : List Int → List FileOp
  | [] => []
  | id :: ids =>
    .write filename id :: if file.accepts id then writeIds file filename ids else []

def newIds (file : TasksFile) (taskids : List Int) : List Int :=
  match file.curIds with
  | .error _ => []
  | .ok curIds => taskids.filter fun id => id ∉ curIds

def writeTaskIDsToFile (file : TasksFile) (taskids : List Int) (filename : String) : List FileOp :=
  writeIds file filename (newIds file taskids)

/-- The errors of `getMonitorGroup` and of the file operations are only logged. -/
def onEvent (mgs : Dict String MonitorGroup) (file : TasksFile) : EventData → List FileOp
  | .monitorGroup id .add => [.mkdir (getMonitorGroupPath (getMonitorGroup mgs id).1)]
  | .monitorGroup id .remove => [.removeAll (getMonitorGroupPath (getMonitorGroup mgs id).1)]
  | .monitorGroup _ .update => []
  | .controlGroup _ _ => []
  | .taskIds tasks monitorGroupPath =>
    writeTaskIDsToFile file tasks
      (getMonitorGroupPath (getMonitorGroup mgs monitorGroupPath).1 ++ "/tasks")
  | .refresh => []

/-! ## Runs -/

/-- `handle i file`: the handler of the `i`-th pending event runs. -/
inductive Step where
  | registerApp (name : String) (app : ApplicationSpec)
  | unRegisterApp (name : String)
  | createMonitorGroup (id : String) (grp : MonitorGroup)
  | removeMonitorGroup (id : String)
  | controlGroup (id : String) (operation : Operation)
  | refresh
  | watch (name : String) (ids : List Int)
  | handle (i : ℕ) (file : TasksFile)

def orUnchanged (eng : Engine) : Except String Engine → Engine
  | .ok eng' => eng'
  | .error _ => eng

def step (eng : Engine) : Step → Option Engine
  | .registerApp name app => some (orUnchanged eng (registerApp eng name app))
  | .unRegisterApp name => some (orUnchanged eng (unRegisterApp eng name))
  | .createMonitorGroup id grp => some (orUnchanged eng (createMonitorGroup eng id grp))
  | .removeMonitorGroup id => some (orUnchanged eng (removeMonitorGroup eng id))
  -- The control groups' table is not read by the executor; every change of it is an event.
  | .controlGroup id operation => some (emitEvent eng (.controlGroup id operation))
  | .refresh => some (emitEvent eng .refresh)
  | .watch name ids => some (watch eng name ids)
  | .handle i _ => (eng.pending[i]?).map fun _ => { eng with pending := eng.pending.eraseIdx i }

/-- An engine with any tables and no event on its way. -/
def start (apps : Dict String Application) (mgs : Dict String MonitorGroup) : Engine :=
  ⟨apps, mgs, []⟩

/-! ## A group's own directory -/

/-- Where the resctrl file system keeps a monitor group: under its control group, or under the root
for the default control group. A control group is its own first monitor group. -/
def ownDir (g : MonitorGroup) : List String :=
  if g.controlGroupId = g.id then ["sys", "fs", "resctrl", g.id]
  else if g.controlGroupId = "" then ["sys", "fs", "resctrl", "mon_groups", g.id]
  else ["sys", "fs", "resctrl", g.controlGroupId, "mon_groups", g.id]

/-- The names of the group are proper file names. -/
def Proper (g : MonitorGroup) : Prop :=
  IsName g.id ∧ (g.controlGroupId = "" ∨ IsName g.controlGroupId)

instance (g : MonitorGroup) : Decidable (Proper g) := inferInstanceAs (Decidable (_ ∧ _))

theorem resolve_root : resolve resctrlRoot = ["sys", "fs", "resctrl"] := by decide +kernel

theorem isName_monitorGroups : IsName monitorGroups := by decide +kernel

theorem isName_tasks : IsName "tasks" := by decide +kernel

variable {g : MonitorGroup} {eng : Engine}

theorem proper_of_names (h : ∀ n ∈ ownDir g, IsName n) : Proper g := by
  unfold ownDir at h
  split_ifs at h with hsame hroot
  · have hid : IsName g.id := h g.id (by simp)
    exact ⟨hid, .inr (hsame ▸ hid)⟩
  · exact ⟨h g.id (by simp), .inl hroot⟩
  · exact ⟨h g.id (by simp), .inr (h g.controlGroupId (by simp))⟩

theorem resolve_path (hp : Proper g) : resolve (getMonitorGroupPath g) = ownDir g := by
  obtain ⟨hid, hcg⟩ := hp
  have hne : g.id ≠ "" := hid.1
  unfold getMonitorGroupPath ownDir
  by_cases hsame : g.controlGroupId = g.id
  · simp only [hsame, hne, ne_eq, not_false_eq_true, if_true]
    rw [resolve_name hid, resolve_root]
    rfl
  rcases hcg with hcg | hcg
  · simp only [hcg, hne, ne_eq, not_true, not_false_eq_true, if_true, if_false, Ne.symm hne]
    rw [resolve_name hid, resolve_name isName_monitorGroups, resolve_root]
    rfl
  · simp only [hsame, hcg.1, hne, ne_eq, not_false_eq_true, if_true, if_false]
    rw [resolve_name hid, resolve_name isName_monitorGroups, resolve_name hcg, resolve_root]
    rfl

/-- Paths that go elsewhere go through a name that is not a file name. -/
theorem resolve_path_iff (g : MonitorGroup) :
    resolve (getMonitorGroupPath g) = ownDir g ↔ Proper g := by
  refine ⟨fun h => proper_of_names fun n hn => ?_, resolve_path⟩
  exact isName_of_mem_resolve (h ▸ hn)

theorem resolve_tasks_iff (g : MonitorGroup) :
    resolve (getMonitorGroupPath g ++ "/tasks") = ownDir g ++ ["tasks"] ↔ Proper g := by
  have happ : getMonitorGroupPath g ++ "/tasks" = getMonitorGroupPath g ++ "/" ++ "tasks" := by
    rw [String.append_assoc]
    rfl
  rw [happ, resolve_name isName_tasks, List.append_left_inj, resolve_path_iff]

/-! ## Confinement -/

def EventData.group : EventData → Option String
  | .monitorGroup id _ => some id
  | .taskIds _ monitorGroupPath => some monitorGroupPath
  | .controlGroup _ _ => none
  | .refresh => none

/-- Task ids go to the group's own tasks file, and what is removed is the group's own directory. -/
def Inside (g : MonitorGroup) : FileOp → Prop
  | .mkdir _ => True
  | .removeAll path => resolve path = ownDir g
  | .write path _ => resolve path = ownDir g ++ ["tasks"]

instance (g : MonitorGroup) : ∀ op, Decidable (Inside g op)
  | .mkdir _ => isTrue trivial
  | .removeAll _ => inferInstanceAs (Decidable (_ = _))
  | .write _ _ => inferInstanceAs (Decidable (_ = _))

/-- Whatever the handler of an event does is inside an existing monitor group that the event names. -/
def Confined (mgs : Dict String MonitorGroup) (ev : EventData) (ops : List FileOp) : Prop :=
  ∀ op ∈ ops, ∃ id, ev.group = some id ∧ ∃ g, mgs.lookup id = some g ∧ Inside g op

/-- The step handles no event, or the handler of the event is confined. -/
def Confines (eng : Engine) : Step → Prop
  | .handle i file =>
    ∀ ev, eng.pending[i]? = some ev → Confined eng.mgs ev (onEvent eng.mgs file ev)
  | _ => True

/-- The name has a monitor group, of proper names. -/
def HasGroup (mgs : Dict String MonitorGroup) (id : String) : Prop :=
  ∃ g, mgs.lookup id = some g ∧ Proper g

def SafeEvent (mgs : Dict String MonitorGroup) (file : TasksFile) : EventData → Prop
  | .monitorGroup id .remove => HasGroup mgs id
  | .taskIds tasks monitorGroupPath => newIds file tasks = [] ∨ HasGroup mgs monitorGroupPath
  | _ => True

/-- The step handles no event, or a safe one. -/
def Safe (eng : Engine) : Step → Prop
  | .handle i file => ∀ ev, eng.pending[i]? = some ev → SafeEvent eng.mgs file ev
  | _ => True

/-- The monitor group events on their way name groups of the table. -/
def Known (eng : Engine) : Prop :=
  ∀ id op, EventData.monitorGroup id op ∈ eng.pending → (eng.mgs.lookup id).isSome

variable {mgs : Dict String MonitorGroup} {file : TasksFile} {id : String} {ids : List Int}
  {ev : EventData} {eng' : Engine}

theorem getMonitorGroup_of_lookup (h : mgs.lookup id = some g) :
    (getMonitorGroup mgs id).1 = g := by
  simp [getMonitorGroup, h]

theorem mem_writeIds {filename : String} {op : FileOp} (h : op ∈ writeIds file filename ids) :
    ∃ id, op = .write filename id := by
  induction ids with
  | nil => cases h
  | cons id ids ih =>
    rw [writeIds, List.mem_cons] at h
    rcases h with rfl | h
    · exact ⟨id, rfl⟩
    split_ifs at h with hok
    · exact ih h
    · cases h

theorem exists_write (file : TasksFile) (filename : String) (h : ids ≠ []) :
    ∃ id, .write filename id ∈ writeIds file filename ids := by
  cases ids with
  | nil => exact absurd rfl h
  | cons id ids => exact ⟨id, List.mem_cons_self⟩

theorem remove_confined_iff (id : String) :
    Confined mgs (.monitorGroup id .remove) (onEvent mgs file (.monitorGroup id .remove)) ↔
      HasGroup mgs id := by
  constructor
  · intro h
    obtain ⟨id', hid, g, hg, hin⟩ := h _ List.mem_cons_self
    obtain rfl := some.inj hid
    rw [getMonitorGroup_of_lookup hg] at hin
    exact ⟨g, hg, (resolve_path_iff g).mp hin⟩
  · rintro ⟨g, hg, hp⟩ op hop
    obtain rfl := List.mem_singleton.mp hop
    refine ⟨id, rfl, g, hg, ?_⟩
    rw [getMonitorGroup_of_lookup hg]
    exact (resolve_path_iff g).mpr hp

theorem taskIds_confined_iff (tasks : List Int) (name : String) :
    Confined mgs (.taskIds tasks name) (onEvent mgs file (.taskIds tasks name)) ↔
      newIds file tasks = [] ∨ HasGroup mgs name := by
  constructor
  · intro h
    by_cases hnone : newIds file tasks = []
    · exact .inl hnone
    obtain ⟨id, hid⟩ := exists_write file
      (getMonitorGroupPath (getMonitorGroup mgs name).1 ++ "/tasks") hnone
    obtain ⟨name', hname, g, hg, hin⟩ := h _ hid
    obtain rfl := some.inj hname
    rw [getMonitorGroup_of_lookup hg] at hin
    exact .inr ⟨g, hg, (resolve_tasks_iff g).mp hin⟩
  · intro h op hop
    obtain ⟨id, rfl⟩ := mem_writeIds hop
    rcases h with hnone | ⟨g, hg, hp⟩
    · simp only [onEvent, writeTaskIDsToFile, hnone, writeIds, List.not_mem_nil] at hop
    refine ⟨name, rfl, g, hg, ?_⟩
    rw [getMonitorGroup_of_lookup hg]
    exact (resolve_tasks_iff g).mpr hp

theorem add_confined (h : (mgs.lookup id).isSome) :
    Confined mgs (.monitorGroup id .add) (onEvent mgs file (.monitorGroup id .add)) := by
  intro op hop
  obtain rfl := List.mem_singleton.mp hop
  obtain ⟨g, hg⟩ := isSome_iff_exists.mp h
  exact ⟨id, rfl, g, hg, trivial⟩

theorem handled_iff (hknown : ∀ id op, ev = .monitorGroup id op → (mgs.lookup id).isSome) :
    Confined mgs ev (onEvent mgs file ev) ↔ SafeEvent mgs file ev := by
  cases ev with
  | monitorGroup id op =>
    cases op with
    | add => exact iff_of_true (add_confined (hknown id .add rfl)) trivial
    | remove => exact remove_confined_iff id
    | update => exact iff_of_true (fun op hop => by cases hop) trivial
  | controlGroup | refresh => exact iff_of_true (fun op hop => by cases hop) trivial
  | taskIds tasks name => exact taskIds_confined_iff tasks name

theorem confines_iff (hk : Known eng) (e : Step) : Confines eng e ↔ Safe eng e := by
  cases e with
  | handle i file =>
    refine forall_congr' fun ev => forall_congr' fun hev => handled_iff ?_
    rintro id op rfl
    exact hk id op (List.mem_of_getElem? hev)
  | _ => exact Iff.rfl

/-! ## Groups are never forgotten -/

theorem known_of_le (hk : Known eng)
    (hmgs : ∀ id, (eng.mgs.lookup id).isSome → (eng'.mgs.lookup id).isSome)
    (hpending : ∀ id op, EventData.monitorGroup id op ∈ eng'.pending →
      EventData.monitorGroup id op ∈ eng.pending ∨ (eng'.mgs.lookup id).isSome) : Known eng' := by
  intro id op h
  rcases hpending id op h with h | h
  · exact hmgs id (hk id op h)
  · exact h

theorem known_emit (hk : Known eng)
    (hev : ∀ id op, ev = .monitorGroup id op → (eng.mgs.lookup id).isSome) :
    Known (emitEvent eng ev) := by
  refine known_of_le hk (fun _ h => h) fun id op h => ?_
  rcases List.mem_append.mp h with h | h
  · exact .inl h
  · exact .inr (hev id op (List.mem_singleton.mp h).symm)

theorem known_createMonitorGroup (hk : Known eng) (id : String) (grp : MonitorGroup) :
    Known (orUnchanged eng (createMonitorGroup eng id grp)) := by
  unfold createMonitorGroup
  split_ifs with hdup
  · exact hk
  have hput : Known { eng with mgs := eng.mgs.insert id grp } := by
    refine known_of_le hk (fun id' h => ?_) fun _ _ h => .inl h
    rw [Dict.lookup_insert_ite]
    split_ifs
    · rfl
    · exact h
  refine known_emit hput fun id' op h => ?_
  obtain ⟨rfl, -⟩ := EventData.monitorGroup.inj h
  simp

theorem known_removeMonitorGroup (hk : Known eng) (id : String) :
    Known (orUnchanged eng (removeMonitorGroup eng id)) := by
  unfold removeMonitorGroup
  cases hg : eng.mgs.lookup id with
  | none => exact hk
  | some g =>
    refine known_emit hk fun id' op h => ?_
    obtain ⟨rfl, -⟩ := EventData.monitorGroup.inj h
    simp [hg]

theorem known_watch (hk : Known eng) (name : String) (ids : List Int) :
    Known (watch eng name ids) := by
  unfold watch
  cases eng.apps.lookup name with
  | none => exact hk
  | some app =>
    dsimp only
    split_ifs
    · exact hk
    · exact known_emit hk fun _ _ h => by cases h
    · exact hk

theorem known_step {e : Step} (h : step eng e = some eng') (hk : Known eng) : Known eng' := by
  cases e with
  | registerApp name app =>
    obtain rfl := some.inj h
    unfold registerApp
    split_ifs <;> exact hk
  | unRegisterApp name =>
    obtain rfl := some.inj h
    unfold unRegisterApp
    cases eng.apps.lookup name <;> exact hk
  | createMonitorGroup id grp =>
    obtain rfl := some.inj h
    exact known_createMonitorGroup hk id grp
  | removeMonitorGroup id =>
    obtain rfl := some.inj h
    exact known_removeMonitorGroup hk id
  | controlGroup | refresh =>
    obtain rfl := some.inj h
    exact known_emit hk fun _ _ h => by cases h
  | watch name ids =>
    obtain rfl := some.inj h
    exact known_watch hk name ids
  | handle i file =>
    obtain ⟨ev, -, rfl⟩ := map_eq_some_iff.mp h
    exact known_of_le hk (fun _ h => h) fun _ _ h => .inl (List.mem_of_mem_eraseIdx h)

/-- The executor stays inside the groups that its events name, whatever the engine's tables are and
whatever happens. -/
def AlwaysConfined : Prop := ∀ apps mgs es, Along step Confines (start apps mgs) es

/-- In a run of the engine the executor is confined exactly if each group that is removed, and each
group that new task ids are for, is there when the executor looks it up and has proper names. -/
theorem confined_iff (apps : Dict String Application) (mgs : Dict String MonitorGroup)
    (es : List Step) :
    Along step Confines (start apps mgs) es ↔ Along step Safe (start apps mgs) es := by
  have hstart : Known (start apps mgs) := fun id op h => by cases h
  constructor
  · exact along_of_invariant (fun _ _ _ h _ => known_step h)
      (fun eng e hc hk => (confines_iff hk e).mp hc) hstart
  · exact along_of_invariant (fun _ _ _ h _ => known_step h)
      (fun eng e hc hk => (confines_iff hk e).mpr hc) hstart

/-- A policy with fixed classes has a group for each class, and none for the application. -/
def classGroups : Dict String MonitorGroup := Finmap.singleton "gold" ⟨"gold", "gold"⟩

/-- The root's tasks file, which has all tasks without a group; the new task 42 is elsewhere. -/
def rootTasks : TasksFile := ⟨.ok [1], fun _ => true⟩

/-- The watcher reports the tasks of an application that has no group, and they go to the tasks file
of the root. -/
theorem not_alwaysConfined : ¬ AlwaysConfined := by
  intro h
  have hrun := h ∅ classGroups
    [.registerApp "web" ⟨"web"⟩, .watch "web" [42], .handle 0 rootTasks]
  have hop := hrun.2.2.1 (.taskIds [42] "web") (by decide +kernel)
    (.write "/sys/fs/resctrl/tasks" 42) (by decide +kernel)
  obtain ⟨id, hid, g, hg, -⟩ := hop
  obtain rfl := some.inj hid
  have hnone : classGroups.lookup "web" = none := by decide +kernel
  exact some_ne_none g (hg.symm.trans hnone)

end IOIsolation.Service.RdtExecutor
