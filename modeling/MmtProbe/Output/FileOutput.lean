/-
# Sampled file output

`file_output.c` writes reports to a data file.  When it is sampled, a flush closes
the file, puts a semaphore `name.sem` beside it and opens the next one, whose name
holds the current time.  A file without messages is removed instead.

All names are made by the string builder in arrays of 255 bytes, and all files are
opened with truncation.  The disk is a partial function from paths to contents; the
labels of the machine bring what the clock says and what stands in the arrays.
-/

import MmtProbe.Output.Report
import MmtProbe.Math.Machine
import Mathlib.Logic.Function.Basic

namespace MmtProbe.Output

open MmtProbe.Math MmtProbe.Dpi MmtProbe.Lib

/-- The name of a file, as the system sees it. -/
abbrev Path := List UInt8

/-- The files and their contents. -/
abbrev Disk := Path → Option (List UInt8)

/-- `fopen` with mode `w`, on a file system where it succeeds. -/
def fopen (disk : Disk) (path : Path) : Disk := Function.update disk path (some [])

def unlink (disk : Disk) (path : Path) : Disk := Function.update disk path none

/-- `fprintf` to a file that was opened under a path. -/
def fprintf (disk : Disk) (path : Path) (text : List UInt8) : Disk :=
  Function.update disk path ((disk path).map (· ++ text))

/-- An array of `MAX_LENGTH_FULL_PATH_FILE_NAME` bytes. -/
abbrev PathArray := { bytes : List UInt8 // bytes.length = maxLengthFullPathFileName }

/-- What of `file_output_conf_t` is read when no number of files is retained. -/
structure FileOutputConf where
  directory : CString
  filename : CString
  isSampled : Bool
deriving DecidableEq

/-- `file_output_t` -/
structure FileOutput where
  id : UInt16
  nbMessages : UInt32
  /-- The array behind `file_name`. -/
  fileName : List UInt8
  /-- The path of the file that is open. -/
  file : Option Path
deriving DecidableEq

inductive FilePhase where
  | idle
  | running (output : FileOutput)
  | released
  /-- The process did not go on. -/
  | stopped (reason : Stop)
deriving DecidableEq

/-- The disk and the output, with what happened so far: the messages that were given, the
paths that were opened as data files and as semaphores, and the number of messages since
the last data file was opened. -/
structure FileState where
  disk : Disk
  phase : FilePhase
  clock : Timeval
  messages : List (List UInt8)
  created : List Path
  semaphores : List Path
  inFile : Nat

/-! ## The code -/

/-- A part of a function that may stop the process. -/
def FileState.attempt {α : Type} (state : FileState) (run : Except Stop α) : Except FileState α :=
  run.mapError fun reason => { state with phase := .stopped reason }

/-- A path is built in an array and read from there. -/
def buildPath (array : List UInt8) (fields : List Field) : Except Stop (List UInt8 × Path) := do
  let (_, array) ← stringBuilder 0 array maxLengthFullPathFileName fields
  let path ← (loadString array 0).mapError .fault
  return (array, path)

/-- The parts of the name of a data file. -/
def dataFields (conf : FileOutputConf) (id : UInt16) (now : Timeval) : List Field :=
  [.arr conf.directory, .time now, .char 95, .int id.toUInt64, .char 95, .arr conf.filename]

/-- `_create_new_file` -/
def createNewFile (conf : FileOutputConf) (now : Timeval) (output : FileOutput)
    (state : FileState) : Except FileState FileState := do
  let (fileName, path) ← state.attempt
    (buildPath output.fileName (dataFields conf output.id now))
  let output := { output with nbMessages := 0, fileName := fileName, file := some path }
  return { state with
    disk := fopen state.disk path, created := state.created ++ [path], inFile := 0,
    phase := .running output }

/-- `SEMAPHORE_EXT` -/
def semaphoreExt : CString := .ofText ".sem"

/-- `_create_semaphore_file` -/
def createSemaphoreFile (output : FileOutput) (array : PathArray) (state : FileState) :
    Except FileState FileState := do
  let name ← state.attempt ((loadString output.fileName 0).mapError .fault)
  if output.nbMessages > 0 then do
    let (_, path) ← state.attempt (buildPath array.val [.arr (.of name), .arr semaphoreExt])
    return { state with disk := fopen state.disk path, semaphores := state.semaphores ++ [path] }
  else
    return { state with disk := unlink state.disk name }

/-- `file_output_alloc_init`, of an output that is enabled. -/
def fileOutputAllocInit (conf : FileOutputConf) (id : UInt16) (now : Timeval) (array : PathArray)
    (state : FileState) : Except FileState FileState :=
  createNewFile conf now ⟨id, 0, array.val, none⟩ state

/-- `file_output_flush` -/
def fileOutputFlush (conf : FileOutputConf) (now : Timeval) (output : FileOutput)
    (array : PathArray) (state : FileState) : Except FileState FileState :=
  match output.file with
  | none => .ok state
  | some _ =>
      if conf.isSampled then do
        let output := { output with file := none }
        let state ← createSemaphoreFile output array { state with phase := .running output }
        createNewFile conf now output state
      else .ok state

/-- `file_output_release`, up to the memory of the output. -/
def fileOutputRelease (conf : FileOutputConf) (output : FileOutput) (array : PathArray)
    (state : FileState) : Except FileState FileState :=
  match output.file with
  | none => .ok state
  | some _ =>
      let output := { output with file := none }
      if conf.isSampled then
        createSemaphoreFile output array { state with phase := .running output }
      else .ok { state with phase := .running output }

/-- `file_output_write` -/
def fileOutputWrite (output : FileOutput) (message : CString) (state : FileState) : FileState :=
  match output.file with
  | none => state
  | some path => { state with
      disk := fprintf state.disk path (message.bytes ++ [10])
      phase := .running { output with nbMessages := output.nbMessages + 1 } }

/-! ## The machine -/

/-- What happens next to an output. -/
inductive FileAct where
  | alloc (now : Timeval) (array : PathArray)
  | write (message : CString)
  | flush (now : Timeval) (array : PathArray)
  | release (array : PathArray)

/-- What `gettimeofday` says: a time in its range, later than before. -/
def ClockGoesOn (clock now : Timeval) : Prop :=
  isAfter clock now = true ∧ 0 ≤ now.tvSec ∧ now.tvSec < 2 ^ 63 ∧
    0 ≤ now.tvUsec ∧ now.tvUsec < 10 ^ 6

instance (clock now : Timeval) : Decidable (ClockGoesOn clock now) :=
  inferInstanceAs (Decidable (_ ∧ _ ∧ _ ∧ _ ∧ _))

/-- A message was given to the output, whatever became of it. -/
def FileState.given (state : FileState) (message : CString) : FileState :=
  { state with messages := state.messages ++ [message.bytes], inFile := state.inFile + 1 }

/-- The output is not called any more. -/
def FileState.left (state : FileState) : FileState := { state with phase := .released }

/-- The state behind a call, whether it returned or not. -/
def settleFile : Except FileState FileState → FileState
  | .ok state => state
  | .error state => state

/-- One call on an output. -/
def fileStep (conf : FileOutputConf) (id : UInt16) (state : FileState) (act : FileAct) :
    Option FileState :=
  match act, state.phase with
  | .alloc now array, .idle =>
      if ClockGoesOn state.clock now then
        some (settleFile (fileOutputAllocInit conf id now array { state with clock := now }))
      else none
  | .write message, .running output => some ((fileOutputWrite output message state).given message)
  | .flush now array, .running output =>
      if ClockGoesOn state.clock now then
        some (settleFile (fileOutputFlush conf now output array { state with clock := now }))
      else none
  | .release array, .running output =>
      some (settleFile ((fileOutputRelease conf output array state).map FileState.left))
  | _, _ => none

/-- A run starts with any disk and any time, before the output is there. -/
def fileMachine (conf : FileOutputConf) (id : UInt16) : Machine FileState FileAct where
  init state := state.phase = .idle ∧ state.messages = [] ∧ state.created = [] ∧
    state.semaphores = [] ∧ state.inFile = 0
  step := fileStep conf id

end MmtProbe.Output
