import Brookesia.Transition.Machine

/-! # The scan of the local packages of the App Store

A scan asks the storage service for each of its directories whether it is one (`FSStat`) and what is in it (`FSList`), one after
another, and then reads the manifests of the packages it has found, one at each step of a timer. The answers come late, and in any
order: `inFlight` has the requests that are not answered yet.

Scans are numbered, and a request belongs to the scan whose calls have led to it (`scan`). `listed` has what the storage service
has answered to the requests of each scan, `answered` the directories of the scan that goes on whose answer has moved it, `reads`
what was read of its candidates, and `publications` what `finish_local_package_scan` has published.

The directories to begin with, the answers and the manifests are from outside, as is what `call_function_async` and
`start_delayed` return at each call (`Outside`; where its lists end, the calls succeed and nothing can be read). What the scan
shows on the screen, and the directory that it makes at its beginning, are not modelled. -/

namespace Brookesia.AppStore

open Transition

abbrev Path := List String

namespace Path

def lexicallyNormal (path : Path) : Path :=
  path.foldl (fun done component =>
    if component = "." ∨ component = "" then done
    else if component = ".." ∧ done ≠ [] ∧ done.getLast? ≠ some ".." then done.dropLast
    else done ++ [component]) []

def filename (path : Path) : String := path.getLast?.getD ""

/-- `extension() == ".bpk"`: what begins at the last dot, if that is not the first character. -/
def isBpk (path : Path) : Bool :=
  let name := path.filename.toList
  ".bpk".toList.isSuffixOf name && 4 < name.length

end Path

inductive FileType
  | missing | file | directory | other
deriving DecidableEq

structure FileEntry where
  name : String
  type : FileType
  size : ℕ := 0
deriving DecidableEq

/-- What is used of `AppManifest`. -/
structure AppManifest where
  id : String
  name : String := ""
  localizedNames : List (String × String) := []
  version : String := ""
deriving DecidableEq

structure LocalPackageEntry where
  packagePath : Path
  fileName : String
  fileSize : ℕ
  manifestId : String
  appNames : List (String × String)
  version : String
deriving DecidableEq

structure LocalPackageScanCandidate where
  packagePath : Path
  fileSize : ℕ
deriving DecidableEq

inductive LocalPackageScanPhase
  | none | statDirectory | parsePackages
deriving DecidableEq

inductive RequestKind
  | stat | list
deriving DecidableEq

/-- A request that the storage service has not answered. -/
structure Request where
  kind : RequestKind
  generation : ℕ
  dir : Path
  scan : ℕ
deriving DecidableEq

structure Listing where
  scan : ℕ
  dir : Path
  entries : List FileEntry
deriving DecidableEq

structure Publication where
  scan : ℕ
  scans : ℕ
  initial : List Path
  dirs : List Path
  answered : List Path
  reads : List (Path × Option AppManifest)
  packages : List LocalPackageEntry
deriving DecidableEq

structure Outside where
  submits : List Bool := []
  starts : List Bool := []
  manifests : List (Option AppManifest) := []
  order : LocalPackageEntry → LocalPackageEntry → Bool := fun _ _ => true

structure LocalScan where
  context : Bool := true
  asyncGeneration : ℕ := 1
  inProgress : Bool := false
  refreshView : Bool := false
  phase : LocalPackageScanPhase := .none
  dirs : List Path := []
  candidates : List LocalPackageScanCandidate := []
  results : List LocalPackageEntry := []
  seenKeys : List String := []
  dirCursor : ℕ := 0
  candidateCursor : ℕ := 0
  timerId : ℕ := 0
  lastTimerId : ℕ := 0
  timers : List ℕ := []
  inFlight : List Request := []
  localPackages : List LocalPackageEntry := []
  scans : ℕ := 0
  initial : List Path := []
  answered : List Path := []
  reads : List (Path × Option AppManifest) := []
  listed : List Listing := []
  cancelled : List ℕ := []
  publications : List Publication := []

def appendUniquePath (paths : List Path) (path : Path) : List Path :=
  if path.lexicallyNormal ∈ paths then paths else paths ++ [path.lexicallyNormal]

def packageKey (manifestId version : String) : String := manifestId ++ "#" ++ version

namespace LocalScan

def clear (s : LocalScan) : LocalScan :=
  { s with
    inProgress := false, refreshView := false, phase := .none
    dirs := [], candidates := [], results := [], seenKeys := [], dirCursor := 0, candidateCursor := 0 }

/-- `cancel_local_package_scan`. `stops` is whether the timer can be stopped: otherwise it is delivered late. -/
def cancel (s : LocalScan) (stops : Bool) : LocalScan :=
  { s.clear with
    timers := if stops then s.timers.filter (· ≠ s.timerId) else s.timers
    timerId := 0
    cancelled := if s.inProgress then s.cancelled ++ [s.scans - 1] else s.cancelled }

def submit (s : LocalScan) (kind : RequestKind) (dir : Path) : LocalScan :=
  { s with inFlight := s.inFlight ++ [{ kind := kind, generation := s.asyncGeneration, dir := dir, scan := s.scans - 1 }] }

def startTimer (s : LocalScan) : LocalScan :=
  { s with lastTimerId := s.lastTimerId + 1, timerId := s.lastTimerId + 1, timers := s.timers ++ [s.lastTimerId + 1] }

/-- `finish_local_package_scan`, with the order of `rebuild_local_package_index`. -/
def finish (s : LocalScan) (order : LocalPackageEntry → LocalPackageEntry → Bool) : LocalScan :=
  { s.clear with
    localPackages := s.results.mergeSort order
    publications := s.publications ++
      [{ scan := s.scans - 1, scans := s.scans, initial := s.initial, dirs := s.dirs, answered := s.answered
         reads := s.reads, packages := s.results.mergeSort order }] }

def takePackage (s : LocalScan) (candidate : LocalPackageScanCandidate) (manifest : AppManifest) : LocalScan :=
  if manifest.id = "" then s
  else if packageKey manifest.id manifest.version ∈ s.seenKeys then s
  else
    { s with
      seenKeys := s.seenKeys ++ [packageKey manifest.id manifest.version]
      results := s.results ++
        [{ packagePath := candidate.packagePath, fileName := candidate.packagePath.filename, fileSize := candidate.fileSize
           manifestId := manifest.id
           appNames :=
             if manifest.localizedNames = [] ∧ manifest.name ≠ "" then [("en", manifest.name)] else manifest.localizedNames
           version := manifest.version }] }

def readCandidate (s : LocalScan) (candidate : LocalPackageScanCandidate) (manifest : Option AppManifest) : LocalScan :=
  let s := { s with candidateCursor := s.candidateCursor + 1, reads := s.reads ++ [(candidate.packagePath, manifest)] }
  match manifest with
  | none => s
  | some manifest => s.takePackage candidate manifest

/-- `process_local_package_scan_step`, with the `schedule_local_package_scan_step` at its end: if no timer can be started, the next
candidate is read at once. -/
def processStep (order : LocalPackageEntry → LocalPackageEntry → Bool) (starts : List Bool) (manifests : List (Option AppManifest))
    (s : LocalScan) : LocalScan :=
  if s.inProgress = false ∨ s.phase ≠ .parsePackages then s
  else
    match s.candidates[s.candidateCursor]? with
    | none => s.finish order
    | some candidate =>
      if s.timerId ≠ 0 then s.readCandidate candidate (manifests.headD none)
      else
        match starts with
        | false :: rest => processStep order rest manifests.tail (s.readCandidate candidate (manifests.headD none))
        | _ => (s.readCandidate candidate (manifests.headD none)).startTimer

/-- `schedule_local_package_scan_step`. -/
def schedule (s : LocalScan) (o : Outside) : LocalScan :=
  if s.inProgress = false ∨ s.timerId ≠ 0 then s
  else
    match o.starts with
    | false :: rest => processStep o.order rest o.manifests s
    | _ => s.startTimer

/-- The loop of `submit_next_local_package_scan_dir` over the directories from the cursor on. -/
def submitDirs (s : LocalScan) (o : Outside) : List Path → List Bool → LocalScan
  | [], _ => { s with phase := .parsePackages }.schedule o
  | dir :: rest, submits =>
    let s := { s with dirCursor := s.dirCursor + 1 }
    if submits.headD true then s.submit .stat dir
    else { s with answered := s.answered ++ [dir] }.submitDirs o rest submits.tail

def Accepts (s : LocalScan) (generation : ℕ) : Prop :=
  s.context = true ∧ generation = s.asyncGeneration ∧ s.inProgress = true

instance (s : LocalScan) (generation : ℕ) : Decidable (s.Accepts generation) := inferInstanceAs (Decidable (_ ∧ _))

/-- `submit_next_local_package_scan_dir`. -/
def submitNext (s : LocalScan) (generation : ℕ) (submits : List Bool) (o : Outside) : LocalScan :=
  if s.Accepts generation then s.submitDirs o (s.dirs.drop s.dirCursor) submits else s

/-- `start_local_package_scan`. `initial` are the directories that it is given. -/
def start (s : LocalScan) (initial : List Path) (refreshView stops : Bool) (o : Outside) : LocalScan :=
  let s :=
    { s.cancel stops with
      inProgress := true, refreshView := refreshView, phase := .statDirectory
      dirs := initial.foldl appendUniquePath []
      scans := s.scans + 1, initial := initial, answered := [], reads := [] }
  s.submitNext s.asyncGeneration o.submits o

/-- The answer has come for the directory, and the scan goes on. -/
def goOn (s : LocalScan) (request : Request) (submits : List Bool) (o : Outside) : LocalScan :=
  { s with answered := s.answered ++ [request.dir] }.submitNext request.generation submits o

/-- `handle_local_package_scan_stat_result`. -/
def handleStat (s : LocalScan) (request : Request) (isDirectory : Bool) (o : Outside) : LocalScan :=
  if ¬ s.Accepts request.generation then s
  else if !isDirectory then s.goOn request o.submits o
  else if o.submits.headD true then
    { s with inFlight := s.inFlight ++ [{ request with kind := .list }] }
  else s.goOn request o.submits.tail o

def takeEntry (dir : Path) (s : LocalScan) (entry : FileEntry) : LocalScan :=
  if entry.type = .directory ∧ dir.filename = "apps" then { s with dirs := appendUniquePath s.dirs (dir ++ [entry.name]) }
  else if entry.type ≠ .file ∨ (dir ++ [entry.name]).isBpk = false then s
  else
    { s with
      candidates := s.candidates ++ [{ packagePath := (dir ++ [entry.name]).lexicallyNormal, fileSize := entry.size }] }

/-- `handle_local_package_scan_list_result`. -/
def handleList (s : LocalScan) (request : Request) (entries : Option (List FileEntry)) (o : Outside) : LocalScan :=
  if ¬ s.Accepts request.generation then s
  else
    match entries with
    | none => s.goOn request o.submits o
    | some entries => (entries.foldl (takeEntry request.dir) s).goOn request o.submits o

/-- `on_timer`, for the timer of the scan. -/
def onTimer (s : LocalScan) (id : ℕ) (o : Outside) : LocalScan :=
  if id ≠ s.timerId then s else processStep o.order o.starts o.manifests { s with timerId := 0 }

inductive Label
  | onStart
  | onStop (stops : Bool)
  | start (initial : List Path) (refreshView stops : Bool) (o : Outside)
  | cancel (stops : Bool)
  | stat (request : Request) (isDirectory : Bool) (o : Outside)
  | list (request : Request) (entries : Option (List FileEntry)) (o : Outside)
  | timer (id : ℕ) (o : Outside)

def note (s : LocalScan) (request : Request) (entries : Option (List FileEntry)) : LocalScan :=
  { s with
    inFlight := s.inFlight.erase request
    listed := s.listed ++ (entries.map fun entries => { scan := request.scan, dir := request.dir, entries := entries }).toList }

def step (s : LocalScan) : Label → Option LocalScan
  | .onStart =>
    if s.context = false then some { s with context := true, asyncGeneration := s.asyncGeneration + 1 } else none
  | .onStop stops =>
    if s.context = true then
      some { { s with asyncGeneration := s.asyncGeneration + 1 }.cancel stops with localPackages := [], context := false }
    else none
  | .start initial refreshView stops o => if s.context = true then some (s.start initial refreshView stops o) else none
  | .cancel stops => if s.context = true then some (s.cancel stops) else none
  | .stat request isDirectory o =>
    if request ∈ s.inFlight ∧ request.kind = .stat then some ((s.note request none).handleStat request isDirectory o) else none
  | .list request entries o =>
    if request ∈ s.inFlight ∧ request.kind = .list then some ((s.note request entries).handleList request entries o) else none
  | .timer id o => if id ∈ s.timers then some ({ s with timers := s.timers.erase id }.onTimer id o) else none

end LocalScan

def scanMachine : Machine LocalScan LocalScan.Label where
  init s := s = {}
  step := LocalScan.step

end Brookesia.AppStore
