import Doupro.Go.Base64Padded
import Doupro.Go.Errors
import Doupro.Interaction.Threads

/-!
# The file of the encryption key

A first start draws a key and creates its file for itself alone, and every other start reads the
file. A start may be killed before any of its system calls, and others may run meanwhile.
-/

namespace Doupro.Secrets

open Interaction Base64

/-! ### The text of a key -/

/-- The runes that `strings.TrimSpace` takes off, in UTF-8. -/
def spaces : List Bytes :=
  [[9], [10], [11], [12], [13], [32], [194, 133], [194, 160], [225, 154, 128], [226, 128, 128],
    [226, 128, 129], [226, 128, 130], [226, 128, 131], [226, 128, 132], [226, 128, 133],
    [226, 128, 134], [226, 128, 135], [226, 128, 136], [226, 128, 137], [226, 128, 138],
    [226, 128, 168], [226, 128, 169], [226, 128, 175], [226, 129, 159], [227, 128, 128]]

/-- Take runes off the start, as often as there are bytes at most. -/
def trimStart (runes : List Bytes) : Nat → Bytes → Bytes
  | 0, text => text
  | n + 1, text => match runes.find? (·.isPrefixOf text) with
    | none => text
    | some rune => trimStart runes n (text.drop rune.length)

/-- `strings.TrimSpace`. -/
def trimSpace (text : Bytes) : Bytes :=
  let rest := trimStart spaces text.length text
  (trimStart (spaces.map List.reverse) rest.length rest.reverse).reverse

/-- A key that `New` takes: a cipher is made of it. -/
abbrev Key := { key : Bytes // key.length = 32 }

/-- `New`. -/
def newCipher (key : Bytes) : Except GoError Key :=
  if h : key.length = 32 then .ok ⟨key, h⟩
  else .error (.new "encryption key must be exactly 32 bytes")

/-- What is written for a key. -/
def fileText (key : Key) : Bytes := encodePadded key.val ++ [10]

/-! ### System calls -/

/-- An error as `errors.Is` tells them apart. -/
inductive FileError where
  | notExist
  | exist
  | other (err : GoError)

def FileError.toGoError : FileError → GoError
  | .notExist => .external "no such file or directory"
  | .exist => .external "file exists"
  | .other err => err

inductive FileCall where
  | readFile
  | mkdirAll
  /-- `rand.Read` of the bytes of a key. -/
  | random
  /-- `os.OpenFile` with `O_CREATE` and `O_EXCL`. -/
  | create
  /-- One write to the file that was created. -/
  | write (chunk : Bytes)
  | sync
  | close

@[reducible] def FileCall.Reply : FileCall → Type
  | .readFile => Except FileError Bytes
  | .random => Except GoError Key
  | .create => Except FileError Unit
  | .write _ => Except GoError Nat
  | .mkdirAll | .sync | .close => Except GoError Unit

abbrev FileCalls : Signature := ⟨FileCall, FileCall.Reply⟩

abbrev FileProgram (α : Type) := Program FileCalls α

/-- What there is at the path. -/
structure Disk where
  directory : Bool
  file : Option Bytes
  deriving DecidableEq

/-- What is up to the system in a call. -/
structure Share where
  fault : Option GoError := none
  key : Key := ⟨List.replicate 32 0, rfl⟩
  /-- How much of a chunk is written, of which there is at least a byte. -/
  written : Nat := 0

def Disk.exec (d : Disk) (share : Share) : (op : FileCall) → op.Reply × Disk
  | .readFile => (match share.fault, d.file with
    | some err, _ => .error (.other err)
    | none, none => .error .notExist
    | none, some data => .ok data, d)
  | .mkdirAll => match share.fault with
    | some err => (.error err, d)
    | none => (.ok (), { d with directory := true })
  | .random => (match share.fault with
    | some err => .error err
    | none => .ok share.key, d)
  | .create => match share.fault, d.file with
    | some err, _ => (.error (.other err), d)
    | none, some _ => (.error .exist, d)
    | none, none =>
      if d.directory then (.ok (), { d with file := some [] }) else (.error .notExist, d)
  | .write chunk => match share.fault, d.file with
    | some err, _ => (.error err, d)
    | none, none => (.error (.external "bad file descriptor"), d)
    | none, some data =>
      let n := min (max 1 share.written) chunk.length
      (.ok n, { d with file := some (data ++ chunk.take n) })
  | .sync | .close => (match share.fault with
    | some err => .error err
    | none => .ok (), d)

/-- Nobody else touches the file. -/
def files : Machine FileCalls Disk where
  rely d d' := d' = d
  step d op r d' := ∃ share, d.exec share op = (r, d')

/-! ### Loading the key -/

/-- `File.Write`, which goes on until all is written. -/
def writeAll : Nat → Bytes → FileProgram (Except GoError Unit)
  | 0, _ => return .ok ()
  | rest + 1, data => do
    if data = [] then return .ok ()
    match ← .request (S := FileCalls) (.write data) with
    | .error err => return .error err
    | .ok n => writeAll rest (data.drop n)

/-- `loadOrCreateFile` from where the file is created on. -/
def createKeyFile (key : Key) : FileProgram (Except GoError Bytes) := do
  let written ← writeAll (fileText key).length (fileText key)
  let written ← match written with
    | .ok () => .request (S := FileCalls) .sync
    | .error err => pure (.error err)
  let closed ← .request (S := FileCalls) .close
  match written, closed with
  | .error err, _ => return .error (.wrap "write encryption key file" err)
  | .ok (), .error err => return .error (.wrap "close encryption key file" err)
  | .ok (), .ok () => return .ok key.val

/-- `loadOrCreateFile`, which calls itself when the file appears meanwhile; without an answer when
that happens too often. -/
def loadOrCreateFile (path : String) : Nat → FileProgram (Option (Except GoError Bytes))
  | 0 => return none
  | fuel + 1 => do
    if path = "" then return some (.error (.new "encryption key file path is empty"))
    match ← .request (S := FileCalls) .readFile with
    | .ok data => match decodePadded (trimSpace data) with
      | none => return some (.error (.wrap ("decode encryption key file " ++ path)
          (.external "illegal base64 data")))
      | some key => return some (.ok key)
    | .error .notExist =>
      match ← .request (S := FileCalls) .mkdirAll with
      | .error err => return some (.error (.wrap "create encryption key directory" err))
      | .ok () => match ← .request (S := FileCalls) .random with
        | .error err => return some (.error (.wrap "generate encryption key" err))
        | .ok key => match ← .request (S := FileCalls) .create with
          | .error .exist => loadOrCreateFile path fuel
          | .error err => return some (.error (.wrap ("create encryption key file " ++ path)
              err.toGoError))
          | .ok () => return some (← createKeyFile key)
    | .error err => return some (.error (.wrap ("read encryption key file " ++ path) err.toGoError))

/-- `LoadOrCreate`. -/
def loadOrCreate (fuel : Nat) (encoded : Bytes) (path : String) :
    FileProgram (Option (Except GoError Key)) := do
  if encoded ≠ [] then
    match decodePadded encoded with
    | none => return some (.error (.wrap "decode DOUPRO_ENCRYPTION_KEY"
        (.external "illegal base64 data")))
    | some key => return some (newCipher key)
  else
    match ← loadOrCreateFile path fuel with
    | none => return none
    | some (.error err) => return some (.error err)
    | some (.ok key) => return some (newCipher key)

end Doupro.Secrets
