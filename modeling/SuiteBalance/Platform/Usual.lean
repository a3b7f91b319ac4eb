import SuiteBalance.Platform
import SuiteBalance.Terminal.Markup
import SuiteBalance.Yaml.Document

/-!
# The usual platform

The program runs on a machine that lets functions call one another a thousand times, of which some
are left to a command.  A value of a list takes two of them and a value of a mapping three; what is
called once there is not counted.  The console prints all that it is handed.
-/

namespace SuiteBalance

/-- The platform that the program runs on. -/
instance usual : Platform where
  limit := 990
  room := by decide
  frames := 990
  list := 2
  mapping := 3
  leaf _ := 0
  lookup _ _ := 0
  writes _ := true
  list_pos := by decide
  load := Yaml.parse
  escape := Terminal.escape
  refusal? _ := none

end SuiteBalance
