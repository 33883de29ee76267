import AccountView.FileTree

namespace AccountView

/-! A directory of files as storage. It is a temporary one of its system, of which only its own
files are known, and around it are the upper directories of a system. -/

structure Directory where
  files : List (String × ByteArray)

namespace Directory

open FileTree

def plainFiles (names : List String) : List (String × FileTree) :=
  names.map fun name => (name, .file .empty)

def emptyDirectories (names : List String) : List (String × FileTree) :=
  names.map fun name => (name, .directory [])

/-- What the files hold differs from one system to the next, and is left empty. -/
def root : FileTree :=
  .directory <|
    emptyDirectories ["boot", "home", "media", "mnt", "opt", "proc", "root", "run", "srv", "sys",
      "tmp"] ++
    [("dev", .directory (plainFiles ["full", "null", "random", "tty", "urandom", "zero"])),
      ("etc", .directory (plainFiles ["group", "hostname", "hosts", "passwd", "resolv.conf"])),
      ("usr", .directory (("bin", .directory (plainFiles ["cat", "env", "ls", "sh", "true"])) ::
        emptyDirectories ["include", "lib", "local", "sbin", "share", "src"])),
      ("var", .directory (emptyDirectories ["cache", "lib", "log", "spool", "tmp"])),
      ("bin", .link ["usr", "bin"]),
      ("lib", .link ["usr", "lib"]),
      ("sbin", .link ["usr", "sbin"])]

def tree (dir : Directory) : FileTree :=
  .directory (dir.files.map fun (name, contents) => (name, .file contents))

def place (dir : Directory) : Place := ⟨dir.tree, [.directory [], root]⟩

def read (dir : Directory) : Storage := dir.place.read

end Directory

end AccountView
