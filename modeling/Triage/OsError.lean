namespace Triage

inductive OsError
  | notFound
  | permissionDenied
  | notDirectory
  | isDirectory
  | nameTooLong
  | tooManyLinks
  | noSpace
  | nulInName
  | badDescriptor
  deriving DecidableEq, Repr

namespace OsError

def reason : OsError → String
  | notFound => "No such file or directory"
  | permissionDenied => "Permission denied"
  | notDirectory => "Not a directory"
  | isDirectory => "Is a directory"
  | nameTooLong => "File name too long"
  | tooManyLinks => "Too many levels of symbolic links"
  | noSpace => "No space left on device"
  | nulInName => "file name contained an unexpected NUL byte"
  | badDescriptor => "Bad file descriptor"

def number? : OsError → Option Nat
  | notFound => some 2
  | permissionDenied => some 13
  | notDirectory => some 20
  | isDirectory => some 21
  | nameTooLong => some 36
  | tooManyLinks => some 40
  | noSpace => some 28
  | badDescriptor => some 9
  | nulInName => none

def message (e : OsError) : String :=
  match e.number? with
  | some n => s!"{e.reason} (os error {n})"
  | none => e.reason

end OsError
end Triage
