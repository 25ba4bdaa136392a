import Solvency.Text.Basic

/-!
Logging set up by the name of a level. Names are taken in either case, and an unknown one stands for the level of
plain information; chatter of the network client is kept out below warnings.
-/

namespace Solvency

/-- The format of a line of the log. -/
def logFormat : Text := "%(asctime)s %(levelname)-8s %(name)s: %(message)s"

def infoLevel : Int := 20

def warningLevel : Int := 30

/-- The levels under their names. -/
def logLevels : List (Text × Int) :=
  [("CRITICAL", 50), ("FATAL", 50), ("ERROR", 40), ("WARNING", warningLevel), ("WARN", warningLevel),
   ("INFO", infoLevel), ("DEBUG", 10), ("NOTSET", 0)]

/-- The capital of a letter, for the letters whose capital is an ASCII letter. -/
def capital (c : Char) : Char :=
  if c = 'ı' then 'I'
  else if c = 'ſ' then 'S'
  else c.toUpper

def logLevel (name : Text) : Int :=
  let capitals := name.map (CodePoint.map capital)
  match logLevels.find? (·.1 = capitals) with
  | some level => level.2
  | none => infoLevel

/-- The name of the level where none is given. -/
def defaultLevel : Text := "INFO"

/-- How a process logs: the level of everything, the level of the network client, and the formats that lines are
    written in. -/
structure LogSetup where
  level : Int := warningLevel
  clientLevel : Int := 0
  formats : List Text := []
  deriving DecidableEq, Repr

/-- The setup with the level of a name; a format is only added where there is none. -/
def LogSetup.configure (s : LogSetup) (name : Text) : LogSetup where
  level := logLevel name
  clientLevel := warningLevel
  formats := if s.formats.isEmpty then [logFormat] else s.formats

end Solvency
