import SmartC.FileNames
import SmartC.Worker.Validation

/-!
# The commands of the worker

`CommandFactory` builds the command lines of the compiler and the linker from
the names of the files of a job. The names come from the user; that they are
valid and distinct is all that keeps them apart from options, from paths and
from the files of the worker itself. Paths are texts.
-/

namespace SmartC.Worker

open Executor (toAsciiLowercase)

/-! ### Commands -/

structure CommandSpec where
  program : String
  args : List String
  cwd : String
  environment : List (String × String)
  deriving DecidableEq, Repr

inductive BackendKind
  | nsJail | direct
  deriving DecidableEq, Repr

def runtimeSupportObjectPath : String := "/usr/local/lib/smart-c/runtime-support.o"

/-- The settings that the factory reads. `from_env` and `for_test` give the support object its
fixed path. -/
structure CommandFactory where
  backend : BackendKind
  clangPath : String
  clangResourceInclude : String
  muslTarget : String
  muslInclude : String
  muslCcPath : String
  runtimeSupportObject : String
  nsjailPath : String
  nsjailCompileConfig : String
  nsjailCompileSeccomp : String
  fixed : runtimeSupportObject = runtimeSupportObjectPath

/-- The settings of `WorkerConfig::for_test` on x86_64, with either backend. -/
def CommandFactory.forTest (backend : BackendKind) : CommandFactory where
  backend := backend
  clangPath := "/usr/bin/clang"
  clangResourceInclude := "/usr/lib/clang/18/include"
  muslTarget := "x86_64-linux-musl"
  muslInclude := "/usr/include/x86_64-linux-musl"
  muslCcPath := "/usr/bin/musl-gcc"
  runtimeSupportObject := runtimeSupportObjectPath
  nsjailPath := "/usr/local/bin/nsjail"
  nsjailCompileConfig := "/etc/smart-c/nsjail/compile.cfg"
  nsjailCompileSeccomp := "/etc/smart-c/nsjail/compile.seccomp"
  fixed := rfl

def compileEnvironment : List (String × String) := [
  ("PATH", "/usr/local/sbin:/usr/local/bin:/usr/sbin:/usr/bin:/sbin:/bin"),
  ("HOME", "/nonexistent"),
  ("LC_ALL", "C"),
  ("TMPDIR", "/tmp")]

def jailProgramPath (hostPath : String) : String := hostPath

namespace CommandFactory

def wrapCompile (f : CommandFactory) (workspace program : String) (args : List String) :
    CommandSpec :=
  match f.backend with
  | .direct => ⟨program, args, workspace, compileEnvironment⟩
  | .nsJail =>
    ⟨f.nsjailPath,
      ["--config", f.nsjailCompileConfig, "--bindmount", workspace ++ ":/workspace",
        "--seccomp_policy", f.nsjailCompileSeccomp, "--", jailProgramPath program] ++ args,
      workspace, []⟩

def compile (f : CommandFactory) (workspace : String) (sourceFiles : List String) : CommandSpec :=
  f.wrapCompile workspace f.clangPath
    (["--target=" ++ f.muslTarget, "-nostdinc", "-isystem", f.clangResourceInclude, "-isystem",
      f.muslInclude, "-std=c17", "-O0", "-Wall", "-Wextra", "-Wpedantic",
      "-fno-color-diagnostics", "-c"] ++ sourceFiles)

end CommandFactory

def stripSuffix (suffix s : String) : Option String :=
  if suffix.toList.isSuffixOf s.toList then
    some (String.ofList (s.toList.take (s.toList.length - suffix.toList.length)))
  else none

/-- `none` is the panic of `expect`. -/
def objectName (name : String) : Option String := (stripSuffix ".c" name).map (· ++ ".o")

def CommandFactory.link (f : CommandFactory) (workspace : String) (sourceFiles : List String) :
    Option CommandSpec :=
  (sourceFiles.mapM objectName).map fun objects =>
    f.wrapCompile workspace f.muslCcPath
      (["-static", f.runtimeSupportObject] ++ objects ++ ["-lm", "-o", "main"])

/-- `Path::join` with a relative or an absolute path. -/
def join (path other : String) : String :=
  if other.toList.head? = some '/' then other
  else if path.toList.getLast? = some '/' ∨ path = "" then path ++ other
  else path ++ "/" ++ other

def sourceFiles (files : List ProtocolSourceFile) : List String :=
  (files.filter fun file => ".c".toList.isSuffixOf file.name.toList).map (·.name)

/-! ### What is read of a command -/

end SmartC.Worker
