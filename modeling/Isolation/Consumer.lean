import Isolation.GoMod

/-!
# Consumers

A consumer is a module that is written for one question and thrown away after it: a `go.mod`
document that requires the modules in question at one version, and a program that imports them
without using them.
-/

namespace Isolation.Consumer

/-- The module path of every consumer. -/
def modulePath : String := "modguard-consumer"

/-- The `go.mod` document of a consumer that requires some paths. -/
def document (paths : List String) (version : String) : String :=
  GoMod.render modulePath paths version

/-- The import of a path under the blank name. -/
def importLine (path : String) : String := s!"\t_ \"{path}\"\n"

/-- The program of a consumer that imports some paths. -/
def program (paths : List String) : String :=
  let imports :=
    if paths.isEmpty then ""
    else "import (\n" ++ String.join (paths.map importLine) ++ ")\n\n"
  "package main\n\n" ++ imports ++ "func main() \x7b\x7d\n"

end Isolation.Consumer
