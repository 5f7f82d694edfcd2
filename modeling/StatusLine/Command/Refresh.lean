import StatusLine.Store.Cache

/-!
Refreshing a cache with the output of a command. How commands run is up to the system.
-/

namespace StatusLine.Command

/-- How a command ends. -/
inductive Ending
  | exited (status : Int) (output : List UInt8)
  | overdue
  /-- It was never started, for a reason that the system gives. -/
  | notStarted (reason : String)
  deriving Repr, DecidableEq

abbrev Runner :=
  String → List String → Datum → Ending

def textOf (key name : String) (limit : Datum) : Ending → Except Failure (List Char)
  | .notStarted reason => .error (.refresh key reason)
  | .overdue =>
      .error (.refresh key (name ++ " timed out after " ++ String.ofList limit.plainText ++ "s"))
  | .exited status output =>
      match Cache.textOfFile output with
      | .error failure => .error failure
      | .ok text =>
          if status == 0 then .ok text
          else
            .error (.refresh key (name ++ " exited with " ++ String.ofList (Text.ofInt status)))

def standardKey : String :=
  "command"

def standardLimit : Datum :=
  .int 3

def output (run : Runner) (words : List String) (limit : Datum) (key : String) :
    Except Failure (List Char) :=
  match words with
  | [] => .error (.other "IndexError" "list index out of range")
  | name :: arguments =>
      if words.any fun word => word.contains '\x00' then .error (.outOfRange "embedded null byte")
      else textOf key name limit (run name arguments limit)

def refresh {α : Type} (run : Runner) (words : List String) (limit : Datum) (key : String) :
    Refresh α :=
  Action.ofExcept (output run words limit key)

end StatusLine.Command
