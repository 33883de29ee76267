import AccountView.Document.Account

namespace AccountView

/-! Storage: what reading the file of a path gives, and what keeps an account from being loaded. A
storage is a function, so that a program over it says nothing about where the files lie. -/

/-- A failure that the system names by a number. -/
structure SystemError where
  code : Nat
  text : String
  deriving DecidableEq

namespace SystemError

def notFound : SystemError := ⟨2, "No such file or directory"⟩

def permissionDenied : SystemError := ⟨13, "Permission denied"⟩

def notDirectory : SystemError := ⟨20, "Not a directory"⟩

def isDirectory : SystemError := ⟨21, "Is a directory"⟩

def nameTooLong : SystemError := ⟨36, "File name too long"⟩

def known : List SystemError :=
  [notFound, permissionDenied, notDirectory, isDirectory, nameTooLong]

/-- The error of a number, with a text of its own if it is not a known one. -/
def ofCode (code : Nat) (text : String) : SystemError :=
  (known.find? (·.code == code)).getD ⟨code, text⟩

def message (e : SystemError) : String :=
  e.text ++ " (os error " ++ toString e.code ++ ")"

end SystemError

inductive ReadFailure where
  | system (e : SystemError)
  | nulInPath
  | notUtf8
  deriving DecidableEq

def ReadFailure.message : ReadFailure → String
  | system e => e.message
  | nulInPath => "file name contained an unexpected NUL byte"
  | notUtf8 => "stream did not contain valid UTF-8"

inductive LoadFailure where
  | unreadable (failure : ReadFailure)
  | refused (fault : Document.Fault)
  deriving DecidableEq

def LoadFailure.message : LoadFailure → String
  | unreadable failure => failure.message
  | refused fault => "invalid user document: " ++ fault.message

abbrev Storage := String → Except ReadFailure ByteArray

namespace Account

def ofBytes (bytes : ByteArray) : Except LoadFailure Account :=
  match String.fromUTF8? bytes with
  | none => .error (.unreadable .notUtf8)
  | some text => (ofDocument text).mapError .refused

def load (storage : Storage) (path : String) : Except LoadFailure Account := do
  let bytes ← (storage path).mapError .unreadable
  ofBytes bytes

end Account

end AccountView
