import Rheonic.Lib.Program
import Rheonic.Lib.PyText
import Rheonic.Lib.RowTable

namespace Rheonic.IncidentRepository
open CommandProgram PyText RowTable

/-- The detectors that give signals. -/
inductive Detector
  | retryStorm
  | loopSuspect
  | tokenExplosion
  deriving DecidableEq, Repr

inductive IncidentType
  | signal (detector : Detector)
  | block
  deriving DecidableEq, Repr

inductive Status
  | open
  | resolved
  | autoResolved
  deriving DecidableEq, Repr

/-- A value of an evidence; `other` is any other JSON value, with what `int` makes of it. -/
inductive Value
  | null
  | bool (b : Bool)
  | int (n : ℤ)
  | str (s : String)
  | other (json : String) (truncated : Option ℤ)
  deriving DecidableEq, Repr

/-- A dictionary; the first entry of a key is the one that counts. -/
abbrev Evidence := List (String × Value)

namespace Evidence

def get (e : Evidence) (key : String) : Value :=
  ((e.find? fun entry => entry.1 = key).map Prod.snd).getD .null

/-- `{**e, **e'}`. -/
def merge (e e' : Evidence) : Evidence := e' ++ e

end Evidence

/-- `_int_value`: zero for what `int` refuses. -/
def intValue : Value → ℤ
  | .null => 0
  | .bool b => if b then 1 else 0
  | .int n => n
  | .str s => (parseInt s).getD 0
  | .other _ truncated => truncated.getD 0

/-- A row of the incidents, without its id. Times are in milliseconds. -/
structure Incident where
  projectId : String
  provider : String
  incidentType : IncidentType
  status : Status := .open
  createdAt : ℕ
  resolvedAt : Option ℕ := none
  evidence : Evidence
  fingerprint : Option String
  lastSeenAt : Option ℕ
  deriving DecidableEq, Repr

/-- When an incident was last seen; without a record of it, when it was created. -/
def Incident.seenAt (i : Incident) : ℕ := i.lastSeenAt.getD i.createdAt

def Incident.count (i : Incident) : ℤ := intValue (i.evidence.get "count")

inductive Event
  | warn
  | resolved
  deriving DecidableEq, Repr

/-- A notification of an incident, with the channels it is enqueued for. -/
structure Notification where
  event : Event
  incidentId : String
  webhook : Bool
  email : Bool
  deriving DecidableEq, Repr

abbrev Incidents := Table String Incident

/-- The incidents, and the notifications enqueued so far. -/
structure World where
  incidents : Incidents
  notifications : List Notification := []

inductive Command
  | createIncident (id : String) (incident : Incident)
  | getOpenIncidentByFingerprint (projectId provider fingerprint : String) (activeAfter : ℕ)
  | updateOpenIncidentActivity (id : String) (evidence : Evidence) (lastSeenAt : ℕ)
  | listOpenByProjectProvider (projectId provider : String)
  | resolveIncident (id : String) (now : ℕ)
  | autoResolveStaleOpenIncidents (cutoff resolvedAt : ℕ)
  | notify (n : Notification)

def Reply : Command → Type
  | .createIncident .. => Unit
  | .getOpenIncidentByFingerprint .. => Option (String × Incident)
  | .updateOpenIncidentActivity .. => Option Incident
  | .listOpenByProjectProvider .. => List (String × Incident)
  | .resolveIncident .. => Option Incident
  | .autoResolveStaleOpenIncidents .. => List (String × Incident)
  | .notify _ => Unit

inductive Exn
  | integrity
  deriving DecidableEq, Repr

abbrev Prog (α : Type) := Program Command Reply Exn α

def createIncident (id : String) (incident : Incident) : Prog Unit :=
  Program.perform (Command.createIncident id incident)

def getOpenIncidentByFingerprint (projectId provider fingerprint : String) (activeAfter : ℕ) :
    Prog (Option (String × Incident)) :=
  Program.perform (Command.getOpenIncidentByFingerprint projectId provider fingerprint activeAfter)

def updateOpenIncidentActivity (id : String) (evidence : Evidence) (lastSeenAt : ℕ) :
    Prog (Option Incident) :=
  Program.perform (Command.updateOpenIncidentActivity id evidence lastSeenAt)

def listOpenByProjectProvider (projectId provider : String) : Prog (List (String × Incident)) :=
  Program.perform (Command.listOpenByProjectProvider projectId provider)

def resolveIncident (id : String) (now : ℕ) : Prog (Option Incident) :=
  Program.perform (Command.resolveIncident id now)

def autoResolveStaleOpenIncidents (cutoff resolvedAt : ℕ) : Prog (List (String × Incident)) :=
  Program.perform (Command.autoResolveStaleOpenIncidents cutoff resolvedAt)

def notify (n : Notification) : Prog Unit := Program.perform (Command.notify n)

/-- Open, of the scope and fingerprint, and seen since the given time. -/
def matchesFingerprint (projectId provider fingerprint : String) (activeAfter : ℕ)
    (i : Incident) : Bool :=
  i.projectId = projectId ∧ i.provider = provider ∧ i.status = .open ∧
    i.fingerprint = some fingerprint ∧ activeAfter ≤ i.seenAt

/-- The matching incident that was created last. -/
def findOpen (t : Incidents) (projectId provider fingerprint : String) (activeAfter : ℕ) :
    Option (String × Incident) :=
  (t.select fun _ i => matchesFingerprint projectId provider fingerprint activeAfter i).argmax
    fun e => e.2.createdAt

/-- Open incidents of a scope, those created last first. -/
def listOpen (t : Incidents) (projectId provider : String) : List (String × Incident) :=
  (t.select fun _ i => i.projectId = projectId ∧ i.provider = provider ∧ i.status = .open)
    |>.insertionSort fun e e' => e'.2.createdAt ≤ e.2.createdAt

def Incident.seen (i : Incident) (evidence : Evidence) (lastSeenAt : ℕ) : Incident :=
  { i with evidence := evidence, lastSeenAt := some lastSeenAt }

def Incident.closed (i : Incident) (status : Status) (now : ℕ) : Incident :=
  { i with status := status, resolvedAt := some now }

def stale (cutoff : ℕ) (i : Incident) : Bool := i.status = .open ∧ i.seenAt < cutoff

def exec : Program.Machine Command Reply Exn World
  | .createIncident id incident, w =>
    match w.incidents.insert id incident with
    | some t => (.ok (), { w with incidents := t })
    | none => (.error .integrity, w)
  | .getOpenIncidentByFingerprint projectId provider fingerprint activeAfter, w =>
    (.ok (findOpen w.incidents projectId provider fingerprint activeAfter), w)
  | .updateOpenIncidentActivity id evidence lastSeenAt, w =>
    if (w.incidents.get id).any fun i => i.status = .open then
      let t := w.incidents.update id fun i => i.seen evidence lastSeenAt
      (.ok (t.get id), { w with incidents := t })
    else (.ok none, w)
  | .listOpenByProjectProvider projectId provider, w =>
    (.ok (listOpen w.incidents projectId provider), w)
  | .resolveIncident id now, w =>
    -- the status of the row is not looked at
    let t := w.incidents.update id fun i => i.closed .resolved now
    (.ok (t.get id), { w with incidents := t })
  | .autoResolveStaleOpenIncidents cutoff resolvedAt, w =>
    let t := w.incidents.updateWhere (fun _ i => stale cutoff i)
      fun i => i.closed .autoResolved resolvedAt
    (.ok ((w.incidents.select fun _ i => stale cutoff i).map fun e =>
      (e.1, e.2.closed .autoResolved resolvedAt)), { w with incidents := t })
  | .notify n, w => (.ok (), { w with notifications := n :: w.notifications })

section Run

variable (w : World)

theorem run_getOpenIncidentByFingerprint (projectId provider fingerprint : String)
    (activeAfter : ℕ) :
    Program.run exec (getOpenIncidentByFingerprint projectId provider fingerprint activeAfter) w =
      (.ok (findOpen w.incidents projectId provider fingerprint activeAfter), w) := rfl

theorem run_listOpenByProjectProvider (projectId provider : String) :
    Program.run exec (listOpenByProjectProvider projectId provider) w =
      (.ok (listOpen w.incidents projectId provider), w) := rfl

theorem run_notify (n : Notification) :
    Program.run exec (notify n) w =
      (.ok (), { w with notifications := n :: w.notifications }) := rfl

theorem run_resolveIncident (id : String) (now : ℕ) :
    Program.run exec (resolveIncident id now) w =
      (.ok ((w.incidents.get id).map fun i => i.closed .resolved now),
        { w with incidents := w.incidents.update id fun i => i.closed .resolved now }) := by
  have h : Program.run exec (resolveIncident id now) w =
      (.ok ((w.incidents.update id fun i => i.closed .resolved now).get id),
        { w with incidents := w.incidents.update id fun i => i.closed .resolved now }) := rfl
  rw [h, Table.get_update, if_pos rfl]

variable {w}

theorem run_createIncident_some {id : String} {i : Incident} {t : Incidents}
    (h : w.incidents.insert id i = some t) :
    Program.run exec (createIncident id i) w = (.ok (), { w with incidents := t }) := by
  have hexec : exec (.createIncident id i) w = (.ok (), { w with incidents := t }) := by
    simp only [exec, h]
  exact (Program.run_perform exec (Command.createIncident id i) w).trans hexec

theorem run_createIncident_none {id : String} {i : Incident}
    (h : w.incidents.insert id i = none) :
    Program.run exec (createIncident id i) w = (.error .integrity, w) := by
  have hexec : exec (.createIncident id i) w = (.error .integrity, w) := by simp only [exec, h]
  exact (Program.run_perform exec (Command.createIncident id i) w).trans hexec

theorem run_updateOpenIncidentActivity {id : String} {i : Incident} (evidence : Evidence)
    (lastSeenAt : ℕ) (hi : w.incidents.get id = some i) (ho : i.status = .open) :
    Program.run exec (updateOpenIncidentActivity id evidence lastSeenAt) w =
      (.ok (some (i.seen evidence lastSeenAt)),
        { w with incidents := w.incidents.update id fun i => i.seen evidence lastSeenAt }) := by
  have hexec : exec (.updateOpenIncidentActivity id evidence lastSeenAt) w =
      (.ok (some (i.seen evidence lastSeenAt)),
        { w with incidents := w.incidents.update id fun i => i.seen evidence lastSeenAt }) := by
    simp only [exec, hi, ho, Option.any_some, decide_true, if_true, Table.get_update,
      Option.map_some]
  exact (Program.run_perform exec
    (Command.updateOpenIncidentActivity id evidence lastSeenAt) w).trans hexec

end Run

theorem matchesFingerprint_iff {projectId provider fingerprint : String} {activeAfter : ℕ}
    {i : Incident} :
    matchesFingerprint projectId provider fingerprint activeAfter i = true ↔
      i.projectId = projectId ∧ i.provider = provider ∧ i.status = .open ∧
        i.fingerprint = some fingerprint ∧ activeAfter ≤ i.seenAt := by
  simp [matchesFingerprint]

theorem findOpen_some {t : Incidents} {projectId provider fingerprint : String} {activeAfter : ℕ}
    {id : String} {i : Incident}
    (h : findOpen t projectId provider fingerprint activeAfter = some (id, i)) :
    t.get id = some i ∧ matchesFingerprint projectId provider fingerprint activeAfter i = true :=
  Table.mem_select.mp (List.argmax_mem h)

theorem findOpen_none {t : Incidents} {projectId provider fingerprint : String} {activeAfter : ℕ}
    (h : findOpen t projectId provider fingerprint activeAfter = none) {id : String}
    {i : Incident} (hi : t.get id = some i) :
    ¬ matchesFingerprint projectId provider fingerprint activeAfter i = true := by
  intro hm
  have hmem : (id, i) ∈ t.select fun _ i =>
      matchesFingerprint projectId provider fingerprint activeAfter i :=
    Table.mem_select.mpr ⟨hi, hm⟩
  rw [List.argmax_eq_none.mp h] at hmem
  simp at hmem

theorem mem_listOpen {t : Incidents} {projectId provider : String} {id : String} {i : Incident} :
    (id, i) ∈ listOpen t projectId provider ↔
      t.get id = some i ∧ i.projectId = projectId ∧ i.provider = provider ∧ i.status = .open := by
  rw [listOpen, List.mem_insertionSort, Table.mem_select]
  simp

end Rheonic.IncidentRepository
