import PublisherSubscriber.Shared.Numerals

/-!
# The command line of the server

One loop with one index, which a keyword with a value moves on by one more.
-/

namespace PublisherSubscriber

/-- What the server is constructed with, and whether debug messages are logged. -/
structure ServerSettings where
  port : ℤ := 8080
  topicTimeout : ℤ := 30
  debug : Bool := false
  deriving DecidableEq, Repr

namespace ServerSettings

/-- How `main` ends without a server. -/
inductive Exit
  /-- The usage is printed, and the status is 0. -/
  | help
  /-- The text is logged, and the status is 1. -/
  | failure (message : Text)
  deriving DecidableEq, Repr

/-- `stoi(argv[i + 1])` in its try block, whose handler takes every exception.  Behind
the last word there is a null pointer, and making a string of it throws as well. -/
def nextNumber : List Text → Option ℤ
  | [] => none
  | word :: _ => (stoi word).toOption

/-- One pass of the loop: by how many words the index moves on, and the variables after it. -/
def step (settings : ServerSettings) (arg : Text) (following : List Text) :
    Except Exit (ℕ × ServerSettings) :=
  if arg = ascii "--help" then .error .help
  else if arg = ascii "--port" then
    match nextNumber following with
    | none => .error (.failure (ascii "--port musst be a number."))
    | some port =>
        if port < 0 ∨ port > 65535 then
          .error (.failure (ascii "--port musst be in range 0-65535."))
        else .ok (1, { settings with port := port })
  else if arg = ascii "--topic-timeout" then
    match nextNumber following with
    | none => .error (.failure (ascii "--topic-timeout musst be a number."))
    | some topicTimeout => .ok (1, { settings with topicTimeout := topicTimeout })
  else if arg = ascii "--debug" then .ok (0, { settings with debug := true })
  else .error (.failure (ascii "Invalid arguments: "))

/-- The loop over the words, the first of which may already be used. -/
def parse : ℕ → List Text → ServerSettings → Except Exit ServerSettings
  | _, [], settings => .ok settings
  | used + 1, _ :: following, settings => parse used following settings
  | 0, arg :: following, settings =>
      (settings.step arg following).bind fun next ↦ parse next.1 following next.2

/-- `main` up to the construction of the server, which starts without arguments as well. -/
def main (argv : List Text) : Except Exit ServerSettings := parse 0 argv {}

end ServerSettings

end PublisherSubscriber
