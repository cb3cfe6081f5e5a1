import Sakai.Lib.Numeral
import Sakai.Lib.Result

/-!
# Errors

The errors of one interface file: a field that is missing or in excess, or a field whose value is
invalid, each with the complete input. `outcome` is a result up to the retained input: a value, or
the kind, the field and the value of the failure. `Error` is the error of a failed operation.
-/

namespace Sakai

open Lib

/-- Why a text is not a floating-point number.
Source: the standard library's `ParseFloatError`. -/
inductive FloatErrorKind
  | empty
  | invalid
  deriving DecidableEq, Repr

/-- A numeric field is malformed or outside the target type's supported range.
Source: `error.rs`, `ParseValueError`. -/
inductive ParseValueError
  | integer (kind : IntErrorKind)
  | float (kind : FloatErrorKind)
  | outOfRange
  deriving DecidableEq, Repr

/-- Whether a cgroup interface file has too few or too many fields.
Source: `error.rs`, `FieldKind`. -/
inductive FieldKind
  | missing
  | excess
  deriving DecidableEq, Repr

/-- An error parsing a cgroup interface file.
Source: `error.rs`, `ParseError`. -/
inductive ParseError (E : Type)
  | field (kind : FieldKind) (raw : Str) (field : String)
  | invalid (raw : Str) (field : String) (value : Str) (source : E)
  deriving DecidableEq, Repr

namespace ParseError

variable {E : Type}

/-- The error for a required field that is absent.
Source: `error.rs`, `ParseError::missing`. -/
def missing (raw : Str) (name : String) : ParseError E := .field .missing raw name

/-- The error for an unexpected field after the expected content.
Source: `error.rs`, `ParseError::excess`. -/
def excess (raw : Str) : ParseError E := .field .excess raw "additional"

/-- The input an error retains.
Source: `error.rs`, the field `raw` of `ParseError`. -/
def raw : ParseError E → Str
  | .field _ raw _ => raw
  | .invalid raw _ _ _ => raw

/-- The value an error reports as invalid.
Source: `error.rs`, the field `value` of `ParseError::Invalid`. -/
def value? : ParseError E → Option Str
  | .field _ _ _ => none
  | .invalid _ _ value _ => some value

end ParseError

/-! ## Failures up to the retained input -/

/-- A parse failure without the input it retains: the kind, the field, the value and its error. -/
inductive Failure (E : Type)
  | field (kind : FieldKind) (field : String)
  | invalid (field : String) (value : Str) (source : E)
  deriving DecidableEq, Repr

variable {E T U : Type}

/-- The failure an error reports. -/
def ParseError.failure : ParseError E → Failure E
  | .field kind _ name => .field kind name
  | .invalid _ name value source => .invalid name value source

/-- A result up to the retained input. -/
def outcome (x : Except (ParseError E) T) : Except (Failure E) T :=
  x.mapError ParseError.failure

/-- A sequence has the outcome of its steps in sequence. -/
lemma outcome_bind (x : Except (ParseError E) T) (f : T → Except (ParseError E) U) :
    outcome (x >>= f) = outcome x >>= fun a => outcome (f a) :=
  bind_mapError

/-- A mapped result has the mapped outcome. -/
lemma outcome_map (x : Except (ParseError E) T) (f : T → U) :
    outcome (x.map f) = (outcome x).map f := by
  cases x <;> rfl

/-! ## Failed operations -/

/-- An operating-system error number.
Source: `rustix::io::Errno`. -/
structure Errno where
  /-- The number. -/
  raw : UInt16
  deriving DecidableEq, Repr

namespace Errno

/-- No such file or directory. -/
def NOENT : Errno := ⟨2⟩

/-- Interrupted system call. -/
def INTR : Errno := ⟨4⟩

/-- Bad file descriptor. -/
def BADF : Errno := ⟨9⟩

/-- Permission denied. -/
def ACCESS : Errno := ⟨13⟩

/-- Cross-device link. -/
def XDEV : Errno := ⟨18⟩

/-- Not a directory. -/
def NOTDIR : Errno := ⟨20⟩

/-- Is a directory. -/
def ISDIR : Errno := ⟨21⟩

/-- Invalid argument. -/
def INVAL : Errno := ⟨22⟩

/-- File name too long. -/
def NAMETOOLONG : Errno := ⟨36⟩

/-- Too many symbolic links. -/
def LOOP : Errno := ⟨40⟩

/-- Nothing to read. -/
def AGAIN : Errno := ⟨11⟩

/-- Broken pipe. -/
def PIPE : Errno := ⟨32⟩

/-- Function not implemented. -/
def NOSYS : Errno := ⟨38⟩

/-- Operation not supported. -/
def OPNOTSUPP : Errno := ⟨95⟩

end Errno

/-- The standard library's `io::Error`, as far as it is made or inspected here. -/
inductive IoError
  | os (errno : Errno)
  | invalidInput
  | other
  deriving DecidableEq, Repr

/-- The kind of the I/O error is `InvalidInput`.
Source: the standard library's `io::Error::kind`. -/
def IoError.isInvalidInput : IoError → Bool
  | .invalidInput => true
  | .os errno => errno = .INVAL
  | .other => false

/-- A failed operation.
Source: `error.rs`, `Error`. -/
inductive Error
  | fileMissing (path : Str)
  | notSupported (path : Str) (source : IoError)
  | notCgroupV2
  | deletedCgroup (path : Str)
  | operation (operation : String) (path : Str) (source : IoError)
  | io (error : IoError)
  deriving DecidableEq, Repr

/-- The I/O error of a failed operation, if any, is `InvalidInput`. -/
def Error.isInvalidInput : Error → Bool
  | .notSupported _ source | .operation _ _ source | .io source => source.isInvalidInput
  | _ => false

/-- The error of a failed interface read.
Source: `error.rs`, `Error::read`. -/
def Error.read (path : Str) (errno : Errno) : Error :=
  if errno = .NOENT then .fileMissing path
  else if errno = .NOSYS ∨ errno = .OPNOTSUPP then .notSupported path (.os errno)
  else .operation "read interface" path (.os errno)

/-- The errors of procfs.
Source: `procfs::ProcError`, by the cases of `Error::procfs`. -/
inductive ProcError
  | io (source : IoError) (path : Option Str)
  | permissionDenied (path : Option Str)
  | notFound (path : Option Str)
  | incomplete (path : Option Str)
  | other
  deriving DecidableEq, Repr

/-- The error of a failed procfs read.
Source: `error.rs`, `Error::procfs`. -/
def Error.procfs (error : ProcError) : Error :=
  let (source, path) := match error with
    | .io source path => (source, path)
    | .permissionDenied path => (.os .ACCESS, path)
    | .notFound path => (.os .NOENT, path)
    | .incomplete path => (.other, path)
    | .other => (.other, none)
  match path with
  | some path => .operation "read procfs" path source
  | none => .io source

end Sakai
