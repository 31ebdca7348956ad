import IOIsolation.Lib.Run
import IOIsolation.Service.Persist

/-!
# Service.Disk

The disk engine of the service: registering and unregistering applications, and starting again from
the database. The answers of the file system and of the database are inputs, as is the reading of
the JSON text of a request.

* `registerApp_passes` — what a request needs to get as far as the table.
* `memory_is_stored`   — after a call that reports success or not-found, memory holds what a restart
  would load, if no delete of a stored application fails and an application that could not be stored
  is dropped before anything else is called.
-/

namespace IOIsolation.Service

open Lib

namespace Disk

/-- The JSON text of a request's `AppInfo`. -/
structure DiskCgroupInfo where
  cgroupPath : String
  deviceId : List String
  deriving DecidableEq

structure AppInfo where
  appName : String
  cgroupPath : String
  deviceMM : List String
  deriving DecidableEq

abbrev DiskEngine := Tables AppInfo.appName

/-- A digit, a colon and a digit stand somewhere in the text: a match of `([0-9]+:[0-9])+`. -/
def checkValidDevice (path : String) : Bool := go path.toList
where
  go : List Char → Bool
    | a :: b :: c :: rest => (a.isDigit && b == ':' && c.isDigit) || go (b :: c :: rest)
    | _ => false

/-- The checks of `RegisterApp`, in their order: the record to be entered, or the reply. -/
def checkApp (parse : String → Except String DiskCgroupInfo) (fs : Files) (e : DiskEngine)
    (req : RegisterAppRequest) : Except Reply AppInfo :=
  if (e.apps.lookup req.appName).isSome then
    .error ⟨none, some (.status .alreadyExists "App Already Registered")⟩
  else
    match parse req.appInfo with
    | .error message => .error (replyFail req.appName message)
    | .ok pp =>
      if pp.deviceId.length = 0 ∨ req.appName = "" ∨ pp.cgroupPath = "" then
        .error (replyFail req.appName ("input information for RegisterApp is not complete. " ++
          "AppName, CgroupPath and DeviceId are required"))
      else if fs.stat pp.cgroupPath = false then
        .error (replyFail req.appName "CgroupPath is invalid or does not exist")
      else if pp.deviceId.all checkValidDevice = false then
        .error (replyFail req.appName "DeviceId is invalid")
      else if fs.readlink pp.cgroupPath = true then
        .error (replyFail req.appName "CgroupPath is a symbolic link, which is not allowed")
      else .ok ⟨req.appName, pp.cgroupPath, pp.deviceId⟩

def registerApp (parse : String → Except String DiskCgroupInfo) (fs : Files) (saved : Bool)
    (e : DiskEngine) (req : RegisterAppRequest) : Reply × DiskEngine :=
  registerChecked e (checkApp parse fs e req) saved

/-- The request is for a new application, complete, and names an existing cgroup and valid devices. -/
structure Passes (parse : String → Except String DiskCgroupInfo) (fs : Files) (e : DiskEngine)
    (req : RegisterAppRequest) (pp : DiskCgroupInfo) : Prop where
  new : e.apps.lookup req.appName = none
  parsed : parse req.appInfo = .ok pp
  devices : pp.deviceId ≠ []
  appName : req.appName ≠ ""
  cgroupPath : pp.cgroupPath ≠ ""
  stat : fs.stat pp.cgroupPath = true
  valid : ∀ d ∈ pp.deviceId, checkValidDevice d = true
  noLink : fs.readlink pp.cgroupPath = false

variable {a : AppInfo} {e : DiskEngine} {fs : Files} {parse : String → Except String DiskCgroupInfo}
  {req : RegisterAppRequest} {appId : String}

theorem checkApp_ok_iff :
    checkApp parse fs e req = .ok a ↔
      ∃ pp, Passes parse fs e req pp ∧ a = ⟨req.appName, pp.cgroupPath, pp.deviceId⟩ := by
  constructor
  · intro h
    unfold checkApp at h
    split at h
    · cases h
    rename_i hnew
    split at h
    · cases h
    rename_i pp hparse
    split_ifs at h with hfull hstat hvalid hlink
    obtain ⟨hdev, hname, hpath⟩ : pp.deviceId ≠ [] ∧ req.appName ≠ "" ∧ pp.cgroupPath ≠ "" := by
      simpa [not_or] using hfull
    refine ⟨pp, ⟨by simpa using hnew, hparse, hdev, hname, hpath, by simpa using hstat, ?_,
      by simpa using hlink⟩, ?_⟩
    · simpa using hvalid
    · exact (Except.ok.inj h).symm
  · rintro ⟨pp, hp, rfl⟩
    have hvalid : pp.deviceId.all checkValidDevice = true := List.all_eq_true.mpr hp.valid
    simp [checkApp, hp.new, hp.parsed, hp.devices, hp.appName, hp.cgroupPath, hp.stat, hvalid,
      hp.noLink]

theorem registerApp_passes {pp : DiskCgroupInfo} (h : Passes parse fs e req pp) (saved : Bool) :
    registerApp parse fs saved e req =
      insertAndSave e ⟨req.appName, pp.cgroupPath, pp.deviceId⟩ saved := by
  simp only [registerApp, registerChecked, checkApp_ok_iff.mpr ⟨pp, h, rfl⟩]

theorem registerApp_refused (h : ∀ pp, ¬ Passes parse fs e req pp) (saved : Bool) :
    (registerApp parse fs saved e req).2 = e ∧
      ∃ err, (registerApp parse fs saved e req).1.err = some err ∧ ∀ m, err ≠ .status .notFound m := by
  cases hc : checkApp parse fs e req with
  | ok a =>
    obtain ⟨pp, hp, -⟩ := checkApp_ok_iff.mp hc
    exact absurd hp (h pp)
  | error reply =>
    simp only [registerApp, registerChecked, hc, true_and]
    unfold checkApp at hc
    split at hc
    · cases hc; exact ⟨_, rfl, by simp⟩
    split at hc
    · cases hc; exact ⟨_, rfl, by simp⟩
    · split_ifs at hc <;> cases hc <;> exact ⟨_, rfl, by simp⟩

structure UnRegisterReply where
  status : Option ResponseState
  err : Option Error
  deriving DecidableEq

def unRegisterApp (deleted : Bool) (e : DiskEngine) (appId : String) :
    UnRegisterReply × DiskEngine :=
  if (e.apps.lookup appId).isSome then
    (⟨some .ok, none⟩, deleteAppInfo e appId deleted)
  else
    (⟨none, some (.status .notFound "App Not Found")⟩, e)

/-- `Initialize` after a restart: memory is what `GetAllAppInfos` finds in the bucket. -/
def initializeEngine (e : DiskEngine) : DiskEngine := { e with apps := e.stored }

/-! ## Runs -/

inductive Report where
  | ok
  | notFound
  | failed
  deriving DecidableEq

def reportOf (status : Option ResponseState) (err : Option Error) : Report :=
  match err with
  | some (.status .notFound _) => .notFound
  | some _ => .failed
  | none => if status = some .fail then .failed else .ok

/-- The engine, with the report of the step before, if it was a call. -/
structure State where
  engine : DiskEngine
  report : Option Report

/-- Calls, the loop of `CheckPodCgroup` finding the cgroup of an application gone, and restarts. The
database's answer is `saved` or `deleted`. -/
inductive Event where
  | registerApp (req : RegisterAppRequest) (fs : Files) (saved : Bool)
  | unRegisterApp (appId : String) (deleted : Bool)
  | checkPodCgroup (appId : String) (deleted : Bool)
  | restart

def start : State := ⟨⟨.empty, .empty⟩, none⟩

def step (parse : String → Except String DiskCgroupInfo) (s : State) : Event → Option State
  | .registerApp req fs saved =>
    let r := registerApp parse fs saved s.engine req
    some ⟨r.2, some (reportOf (r.1.response.map (·.status)) r.1.err)⟩
  | .unRegisterApp appId deleted =>
    let r := unRegisterApp deleted s.engine appId
    some ⟨r.2, some (reportOf r.1.status r.1.err)⟩
  | .checkPodCgroup appId deleted => some ⟨deleteAppInfo s.engine appId deleted, none⟩
  | .restart => some ⟨initializeEngine s.engine, none⟩

/-- Memory holds what a restart would load, after a call that reported success or not-found. -/
def Agrees (s : State) : Prop :=
  s.report = some .ok ∨ s.report = some .notFound → s.engine.apps = (initializeEngine s.engine).apps

/-- The application is in memory and not in the database. -/
def Unsaved (e : DiskEngine) (appId : String) : Prop :=
  e.apps.lookup appId ≠ none ∧ e.stored.lookup appId = none

instance (e : DiskEngine) (appId : String) : Decidable (Unsaved e appId) :=
  inferInstanceAs (Decidable (_ ∧ _))

theorem Unsaved.mem_keys (h : Unsaved e appId) : appId ∈ e.apps.apps.keys := by
  obtain ⟨a, ha⟩ := Option.ne_none_iff_exists'.mp h.1
  exact Finmap.mem_keys.mpr (Finmap.mem_of_lookup_eq_some ha)

instance (e : DiskEngine) (appId : String) : Decidable (∀ k, Unsaved e k → appId = k) :=
  decidable_of_iff (∀ k ∈ e.apps.apps.keys, Unsaved e k → appId = k)
    ⟨fun h k hk => h k hk.mem_keys hk, fun h k _ => h k⟩

/-- While an application is unsaved only it is called for, and no delete of a stored one fails. -/
def Dropped (s : State) : Event → Prop
  | .registerApp req _ _ => ∀ k, Unsaved s.engine k → req.appName = k
  | .unRegisterApp appId deleted | .checkPodCgroup appId deleted =>
    (∀ k, Unsaved s.engine k → appId = k) ∧
      (deleted = false → s.engine.apps.lookup appId ≠ none → Unsaved s.engine appId)
  | .restart => True

instance Dropped.decidable (s : State) : ∀ ev, Decidable (Dropped s ev)
  | .registerApp req _ _ => inferInstanceAs (Decidable (∀ k, Unsaved s.engine k → req.appName = k))
  | .unRegisterApp appId _ | .checkPodCgroup appId _ =>
    inferInstanceAs (Decidable ((∀ k, Unsaved s.engine k → appId = k) ∧ (_ → _ → _)))
  | .restart => isTrue trivial

/-- Memory is the database, or has one application more, whose registration was not reported as a
success. -/
def Inv (s : State) : Prop :=
  s.engine.apps = s.engine.stored ∨
    ∃ a, s.engine.stored.lookup a.appName = none ∧ s.engine.apps = s.engine.stored.insert a ∧
      s.report ≠ some .ok ∧ s.report ≠ some .notFound

variable {s : State}

theorem Inv.agrees (h : Inv s) : Agrees s := by
  intro hreport
  rcases h with h | ⟨a, -, -, hok, hnot⟩
  · exact h
  · exact absurd hreport (not_or.mpr ⟨hok, hnot⟩)

theorem report_of_err {status : Option ResponseState} {err : Error}
    (h : ∀ m, err ≠ .status .notFound m) : reportOf status (some err) = .failed := by
  cases err with
  | plain message => rfl
  | status code message =>
    cases code with
    | alreadyExists => rfl
    | notFound => exact absurd rfl (h message)

theorem unsaved_of_insert (ha : e.stored.lookup a.appName = none)
    (happs : e.apps = e.stored.insert a) : Unsaved e a.appName :=
  ⟨by simp [happs, AppTable.lookup_insert], ha⟩

theorem not_unsaved (h : e.apps = e.stored) (k : String) : ¬ Unsaved e k := by
  rintro ⟨hin, hout⟩
  exact hin (h ▸ hout)

theorem registerApp_inv {saved : Bool} (hs : Inv s) (hc : ∀ k, Unsaved s.engine k → req.appName = k) :
    Inv ⟨(registerApp parse fs saved s.engine req).2,
      some (reportOf ((registerApp parse fs saved s.engine req).1.response.map (·.status))
        (registerApp parse fs saved s.engine req).1.err)⟩ := by
  by_cases hpass : ∃ pp, Passes parse fs s.engine req pp
  · obtain ⟨pp, hp⟩ := hpass
    have hagree : s.engine.apps = s.engine.stored := by
      rcases hs with h | ⟨a, ha, happs, -⟩
      · exact h
      -- the unsaved application would be the one of the request, which is not in memory
      · have hk := hc a.appName (unsaved_of_insert ha happs)
        have hnew := hp.new
        rw [hk, happs, AppTable.lookup_insert, if_pos rfl] at hnew
        cases hnew
    have hname : AppInfo.appName ⟨req.appName, pp.cgroupPath, pp.deviceId⟩ ≠ "" := hp.appName
    rw [registerApp_passes hp, insertAndSave_eq hname]
    cases saved with
    | true => exact .inl (by simp [hagree])
    | false =>
      refine .inr ⟨⟨req.appName, pp.cgroupPath, pp.deviceId⟩, ?_, ?_, ?_, ?_⟩
      · exact hagree ▸ hp.new
      · simp [hagree]
      · simp [reportOf, replyFail]
      · simp [reportOf, replyFail]
  · obtain ⟨hsame, err, herr, hnot⟩ :=
      registerApp_refused (fun pp hp => hpass ⟨pp, hp⟩) saved
    rw [hsame, herr, report_of_err hnot]
    rcases hs with h | ⟨a, ha, happs, -⟩
    · exact .inl h
    · exact .inr ⟨a, ha, happs, by simp, by simp⟩

theorem deleteAppInfo_agrees {deleted : Bool} (hs : Inv s)
    (ha : s.engine.apps.lookup appId = some a) (honly : ∀ k, Unsaved s.engine k → appId = k)
    (hdel : deleted = false → s.engine.apps.lookup appId ≠ none → Unsaved s.engine appId) :
    (deleteAppInfo s.engine appId deleted).apps = (deleteAppInfo s.engine appId deleted).stored := by
  rw [deleteAppInfo_eq ha]
  rcases hs with h | ⟨b, hb, happs, -⟩
  · cases deleted with
    | true => simp [h]
    | false => exact absurd (hdel rfl (by simp [ha])) (not_unsaved h appId)
  · have hk := honly b.appName (unsaved_of_insert hb happs)
    subst hk
    rw [happs, AppTable.erase_insert hb, AppTable.erase_of_none hb, ite_self]

theorem deleteAppInfo_absent (h : e.apps.lookup appId = none) (deleted : Bool) :
    deleteAppInfo e appId deleted = e := by
  simp only [deleteAppInfo, h]

theorem step_inv (s : State) (ev : Event) (s' : State) (h : step parse s ev = some s')
    (hc : Dropped s ev) (hs : Inv s) : Inv s' := by
  cases ev with
  | registerApp req fs saved =>
    cases h
    exact registerApp_inv hs hc
  | unRegisterApp appId deleted =>
    cases h
    cases ha : s.engine.apps.lookup appId with
    | some a =>
      simp only [unRegisterApp, ha, Option.isSome_some, if_true]
      exact .inl (deleteAppInfo_agrees hs ha hc.1 hc.2)
    | none =>
      simp only [unRegisterApp, ha, Option.isSome_none, Bool.false_eq_true, if_false]
      rcases hs with h | ⟨b, hb, happs, -⟩
      · exact .inl h
      have hk := hc.1 b.appName (unsaved_of_insert hb happs)
      rw [hk, happs, AppTable.lookup_insert, if_pos rfl] at ha
      cases ha
  | checkPodCgroup appId deleted =>
    cases h
    cases ha : s.engine.apps.lookup appId with
    | some a => exact .inl (deleteAppInfo_agrees hs ha hc.1 hc.2)
    | none =>
      rw [deleteAppInfo_absent ha]
      rcases hs with h | ⟨b, hb, happs, -⟩
      · exact .inl h
      · exact .inr ⟨b, hb, happs, by simp, by simp⟩
  | restart =>
    cases h
    exact .inl rfl

/-- Memory holds what a restart would load after every call that reports success or not-found, in
every run in which an application that could not be stored is dropped first and no delete of a
stored one fails. -/
theorem memory_is_stored (parse : String → Except String DiskCgroupInfo) (es : List Event)
    (s : State) (hrun : run (step parse) start es = some s)
    (hdrop : Along (step parse) Dropped start es) : Agrees s :=
  (run_invariant (I := Inv) step_inv (.inl rfl) hdrop hrun).agrees

/-- Every text reads as one device in one cgroup, for runs on fixed inputs. -/
def parseOne (_ : String) : Except String DiskCgroupInfo := .ok ⟨"/sys/fs/cgroup/pod", ["8:0"]⟩

/-- Every path exists and none is a link. -/
def plainFiles : Files := ⟨fun _ => true, fun _ => false⟩

/-- The delete of a registered application fails; it is reported as unregistered and would come back
with a restart. -/
theorem memory_not_stored :
    ¬ ∀ (parse : String → Except String DiskCgroupInfo) (es : List Event) (s : State),
        run (step parse) start es = some s → Agrees s := by
  intro h
  obtain ⟨s, hs, hreport, happs, hstored⟩ : ∃ s ∈ run (step parseOne) start
      [.registerApp ⟨"pod", "info"⟩ plainFiles true, .unRegisterApp "pod" false],
      s.report = some .ok ∧ s.engine.apps.lookup "pod" = none ∧
        s.engine.stored.lookup "pod" = some ⟨"pod", "/sys/fs/cgroup/pod", ["8:0"]⟩ := by
    decide +kernel
  have hagree : s.engine.apps = s.engine.stored := h parseOne _ s hs (.inl hreport)
  rw [hagree, hstored] at happs
  cases happs

/-- A registration that could not be stored is taken back and repeated. -/
theorem memory_is_stored_retry :
    ∃ s, run (step parseOne) start
        [.registerApp ⟨"pod", "info"⟩ plainFiles false, .unRegisterApp "pod" false,
          .registerApp ⟨"pod", "info"⟩ plainFiles true] = some s ∧ Agrees s ∧
      s.report = some .ok := by
  refine (exists_run (by decide +kernel) fun s hs _ => ?_).imp fun _ h => ⟨h.1, h.2.symm⟩
  exact memory_is_stored parseOne _ s hs (by decide +kernel)

end Disk
end IOIsolation.Service
