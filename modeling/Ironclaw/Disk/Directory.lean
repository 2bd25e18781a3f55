import Ironclaw.Lib.Fault
import Ironclaw.Lib.GoMap
import Ironclaw.Lib.Program

/-!
# The spool directory

The file system calls that the spool makes on its directory.  A call takes
effect, fails without effect, or is cut by a kill; only a write can leave a
part of its effect behind.  Renaming and unlinking are atomic.

The journal is ghost state: it names every file that a rename published and
every file that was unlinked, in order, across all processes.
-/

namespace Ironclaw.Disk

open Lib

abbrev Payload := List UInt8

/-- An atomic change of the directory. -/
inductive Happening where
  | published (name : String) (payload : Payload)
  | removed (name : String)
deriving DecidableEq

/-- The files, and what happened to the entries. -/
structure Directory where
  files : GoMap String Payload
  journal : List Happening

/-- The calls on the directory; a path is its last component. -/
inductive FsCall where
  | mkdirAll
  | chmod
  | readDir
  | info (name : String)
  | openFile (name : String)
  | write (name : String) (payload : Payload)
  | sync (name : String)
  | close (name : String)
  | rename (source target : String)
  | remove (name : String)
  | lstat (name : String)
  | readFile (name : String)
  | syncDirectory

/-- What a call to the file system returns. -/
inductive FsReply where
  | ok
  | failed (fault : Fault)
  | names (names : List String)
  | size (bytes : Nat)
  | content (payload : Payload)

/-- What becomes of a call; a cut write keeps some of its bytes. -/
inductive FsVerdict where
  | proceed
  | fail (kept : Nat)
  | kill (kept : Nat)
deriving DecidableEq

def errNotExist : Fault := .sentinel "file does not exist"
def errInputOutput : Fault := .sentinel "input/output error"

namespace Directory

def empty : Directory := ⟨∅, []⟩

/-- The effect and the reply of a call that proceeds. -/
def proceed (directory : Directory) : FsCall → Directory × FsReply
  | .mkdirAll => (directory, .ok)
  | .chmod => (directory, .ok)
  | .readDir => (directory, .names directory.files.keys)
  | .info name | .lstat name =>
    match directory.files.lookup name with
    | some payload => (directory, .size payload.length)
    | none => (directory, .failed errNotExist)
  -- Opening creates the file or truncates it.
  | .openFile name =>
    ({ directory with files := directory.files.insert name [] }, .ok)
  | .write name payload =>
    ({ directory with files := directory.files.insert name payload }, .ok)
  | .sync _ | .close _ | .syncDirectory => (directory, .ok)
  | .rename source target =>
    match directory.files.lookup source with
    | some payload =>
      ({ files := (directory.files.erase source).insert target payload
         journal :=
           directory.journal ++ [.published target payload] },
        .ok)
    | none => (directory, .failed errNotExist)
  | .remove name =>
    match directory.files.lookup name with
    | some _ =>
      ({ files := directory.files.erase name
         journal := directory.journal ++ [.removed name] },
        .ok)
    | none => (directory, .failed errNotExist)
  | .readFile name =>
    match directory.files.lookup name with
    | some payload => (directory, .content payload)
    | none => (directory, .failed errNotExist)

/-- What a call that fails or is cut leaves behind. -/
def cut (kept : Nat) (directory : Directory) : FsCall → Directory
  | .write name payload =>
    { directory with
      files := directory.files.insert name (payload.take kept) }
  | _ => directory

end Directory

/-- The directory as a device. -/
def fileSystem : Device Directory FsCall FsReply FsVerdict where
  effect directory call
    | .proceed =>
      let result := directory.proceed call
      .returned result.1 result.2
    | .fail kept =>
      .returned (directory.cut kept call) (.failed errInputOutput)
    | .kill kept => .killed (directory.cut kept call)

/-- A program of calls on the directory. -/
abbrev FsProgram (Value : Type) := Program FsCall FsReply Value

/-! ## The queue that a journal describes -/

/-- One spooled payload under the name of its file. -/
structure Entry where
  name : String
  payload : Payload
deriving DecidableEq

/-- The published entries that were not removed, in order of publication. -/
def queueOf (journal : List Happening) : List Entry :=
  journal.foldl
    (fun queue happening => match happening with
      | .published name payload => queue ++ [⟨name, payload⟩]
      | .removed name => queue.filter fun entry => entry.name ≠ name)
    []

theorem queueOf_published
    (journal : List Happening) (name : String) (payload : Payload) :
    queueOf (journal ++ [.published name payload]) =
      queueOf journal ++ [⟨name, payload⟩] := by
  simp [queueOf]

theorem queueOf_removed (journal : List Happening) (name : String) :
    queueOf (journal ++ [.removed name]) =
      (queueOf journal).filter fun entry => entry.name ≠ name := by
  simp [queueOf]

end Ironclaw.Disk
