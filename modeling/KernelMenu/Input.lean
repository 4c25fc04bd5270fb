import KernelMenu.Parse

/-!
Sources that come as bytes: from a file that may be missing, or from a stream that is read in
steps. A stream counts as a whole: how its bytes arrive makes no difference, and a failure before
its end wins over all that was read.
-/

namespace KernelMenu

inductive InputFault where
  | missing
  | notText
  | failed (message : String)
deriving DecidableEq, Repr

def InputFault.message : InputFault → String
  | missing => "No such file or directory (os error 2)"
  | notText => "stream did not contain valid UTF-8"
  | failed message => message

def decodeText (bytes : ByteArray) : Except InputFault String :=
  match String.fromUTF8? bytes with
  | some text => .ok text
  | none => .error .notText

/-- The text of a file, given its bytes if it exists. -/
def readText : Option ByteArray → Except InputFault String
  | some bytes => decodeText bytes
  | none => .error .missing

/-- What one step of reading a stream gives. No data at all means the end. -/
inductive ReadStep where
  | data (bytes : ByteArray)
  | interrupted
  | failure (message : String)

/-- All bytes up to the end of the stream, or its first failure before that. -/
def ReadStep.collect : List ReadStep → Except InputFault ByteArray
  | [] => .ok .empty
  | .data bytes :: steps =>
      if bytes.isEmpty then .ok .empty
      else match collect steps with
        | .ok rest => .ok (bytes ++ rest)
        | .error fault => .error fault
  | .interrupted :: steps => collect steps
  | .failure message :: _ => .error (.failed message)

inductive InputError where
  | unreadable (fault : InputFault)
  | rejected (error : ParseError)
deriving DecidableEq, Repr

namespace InputError

def cause : InputError → String
  | unreadable fault => fault.message
  | rejected error => error.message

def message : InputError → String
  | unreadable fault => "I/O error: " ++ fault.message
  | rejected error => "parse error at " ++ error.message

end InputError

namespace Root

def parseText : Except InputFault String → Except InputError Root
  | .error fault => .error (.unreadable fault)
  | .ok source =>
      match parse source with
      | .ok root => .ok root
      | .error error => .error (.rejected error)

def parseFile (file : Option ByteArray) : Except InputError Root := parseText (readText file)

def parseStream (steps : List ReadStep) : Except InputError Root :=
  match ReadStep.collect steps with
  | .ok bytes => parseText (decodeText bytes)
  | .error fault => .error (.unreadable fault)

end Root

end KernelMenu
