import SourceAtlas.FileTree

/-!
# Repositories

The tracked files of a version-controlled directory, as the version control program lists them.

* `Host`: the home directory and the answers of the version control program;
* `RepositoryFault`: why the files cannot be listed;
* `Repository.listed`: the file names of an answer without the excluded ones;
* `Repository.trackedFiles`.
-/

namespace SourceAtlas

/-- What came of a run of the version control program. -/
inductive GitOutcome where
  | finished (stdout stderr : Text) (code : Int)
  | notRun (message : Text)
  | timedOut

/-- What lies outside the file tree: the home directory, and what listing the tracked files of a
directory of a tree comes to. -/
structure Host where
  home : Text
  git : FileTree → Text → GitOutcome

/-- Why the files of a repository cannot be listed. -/
inductive RepositoryFault where
  | notADirectory (root : Text)
  | notRun (message : Text)
  | timedOut
  | failed (root message : Text)
  | file (fault : FileFault)
deriving DecidableEq

def RepositoryFault.message : RepositoryFault → Text
  | notADirectory root => "Repository path is not a directory: " ++ root
  | notRun message => message
  | timedOut => "Command '['git', 'ls-files']' timed out after 60 seconds"
  | failed root message => "Could not retrieve files from " ++ root ++ ": " ++ message
  | file fault => fault.message

/-- The failure that a fault leads to. -/
def RepositoryFault.failure : RepositoryFault → Failure
  | file fault => .broken fault.breakdown
  | fault => .reported fault.message

namespace Repository

/-- The file names that are listed one per line, without those that contain an exclusion. -/
def listed (excluded : List Text) (stdout : Text) : List Text :=
  let names := (Text.lines stdout).filter fun l => !l.isEmpty
  names.filter fun l => !excluded.any fun e => l.contains e

/-- The tracked files of a repository. -/
def trackedFiles (host : Host) (t : FileTree) (excluded : List Text) (root : Text) :
    Except RepositoryFault (List Text) :=
  match t.refusal? root with
  | some fault => .error (.file fault)
  | none =>
    if !t.isDirectory root then .error (.notADirectory root)
    else match host.git t root with
      | .notRun message => .error (.notRun message)
      | .timedOut => .error .timedOut
      | .finished stdout stderr code =>
        if code ≠ 0 then
          let said := stderr.trim
          .error (.failed root (if said.isEmpty then "exit code " ++ Text.ofInt code else said))
        else .ok (listed excluded stdout)

end Repository

end SourceAtlas
