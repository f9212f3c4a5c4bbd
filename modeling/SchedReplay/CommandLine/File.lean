/-! Files as the command sees them. A file that cannot be opened is told apart from one that opens
but cannot be read. -/
namespace SchedReplay

inductive FileContent where
  | unopenable (reason : String)
  | unreadable (reason : String)
  | bytes (content : List UInt8)

namespace FileContent

def missingReason : String := "No such file or directory (os error 2)"

def missing : FileContent := .unopenable missingReason

def forbidden : FileContent := .unopenable "Permission denied (os error 13)"

def obstructed : FileContent := .unopenable "Not a directory (os error 20)"

def overlong : FileContent := .unopenable "File name too long (os error 36)"

/-- A directory opens like a file, but there is nothing to read in it. -/
def directory : FileContent := .unreadable "Is a directory (os error 21)"

end FileContent

end SchedReplay
